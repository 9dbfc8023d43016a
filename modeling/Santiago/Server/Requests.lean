import Santiago.Server.WellFormed

/-!
# Santiago.Server.Requests

What every run keeps of the `Fastcgi::Request` objects: `commit` and `cancel`
reset the data pointer and set the flag together, a request that no user has
seen yet has not replied, and its task is in the acceptor's queue once.
-/

namespace Santiago.Server

open Effect Bytes PacketSocket Connection

/-- The request is held by the task that will hand it to the server. -/
def isQueued (s : Server) (q : Nat) : Bool := (s.requests q).any fun rq => rq.phase = .queued

structure RequestsWF (s : Server) : Prop where
  replied_iff : ∀ q rq, s.requests q = some rq →
    (rq.hasReplied = true ↔ rq.dataWeakPtr = none)
  unreplied : ∀ q rq, s.requests q = some rq → rq.phase = .queued ∨ rq.phase = .cancelling →
    rq.hasReplied = false
  queued : ∀ q, s.acceptorStrand.count (.handleNewRequest q) ≤ if s.isQueued q then 1 else 0

theorem requestsWF_init : init.RequestsWF where
  replied_iff _ _ h := nomatch h
  unreplied _ _ h := nomatch h
  queued _ := Nat.le_refl _

/-- A step that leaves the requests alone and adds none of their tasks. -/
theorem RequestsWF.same {s s' : Server} (h : s.RequestsWF) (hsame : s'.requests = s.requests)
    (hle : ∀ q, s'.acceptorStrand.count (.handleNewRequest q) ≤
      s.acceptorStrand.count (.handleNewRequest q)) : s'.RequestsWF where
  replied_iff q rq hq := h.replied_iff q rq (hsame ▸ hq)
  unreplied q rq hq := h.unreplied q rq (hsame ▸ hq)
  queued q := by
    rw [isQueued, hsame]
    exact Nat.le_trans (hle q) (h.queued q)

theorem RequestsWF.post {s : Server} (h : s.RequestsWF) {task : AcceptorTask}
    (htask : ∀ q, task ≠ .handleNewRequest q) : (s.post task).RequestsWF := by
  refine h.same rfl fun q => ?_
  show (s.acceptorStrand ++ [task]).count (.handleNewRequest q) ≤ _
  simp [htask q]

theorem RequestsWF.withTasks {s : Server} (h : s.RequestsWF) {task : AcceptorTask}
    {rest : List AcceptorTask} (htasks : s.acceptorStrand = task :: rest) :
    (s.withTasks rest).RequestsWF := by
  refine h.same rfl fun q => ?_
  show rest.count (.handleNewRequest q) ≤ _
  rw [htasks]
  exact List.count_le_count_cons

/-- The task of a request is gone once it runs. -/
theorem RequestsWF.count_eq_zero_of_task {s : Server} (h : s.RequestsWF) {q : Nat}
    {rest : List AcceptorTask} (htasks : s.acceptorStrand = .handleNewRequest q :: rest) :
    s.isQueued q = true ∧ (s.withTasks rest).acceptorStrand.count (.handleNewRequest q) = 0 := by
  have hcount := h.queued q
  rw [htasks, List.count_cons_self] at hcount
  split at hcount
  · next hq => exact ⟨hq, by show rest.count _ = 0; omega⟩
  · omega

/-- A request that is no longer queued has no task. -/
theorem RequestsWF.count_eq_zero {s : Server} (h : s.RequestsWF) {q : Nat} {rq : Request}
    (hq : s.requests q = some rq) (hphase : rq.phase ≠ .queued) :
    s.acceptorStrand.count (.handleNewRequest q) = 0 := by
  have hcount := h.queued q
  have hfalse : s.isQueued q = false := by simp [isQueued, hq, hphase]
  rw [hfalse] at hcount
  exact Nat.le_zero.mp hcount

/-- A request whose task is not in the queue changes. -/
theorem RequestsWF.setRequest {s : Server} (h : s.RequestsWF) {q : Nat} (rq : Request)
    (hzero : s.acceptorStrand.count (.handleNewRequest q) = 0)
    (hreplied : rq.hasReplied = true ↔ rq.dataWeakPtr = none)
    (hfresh : rq.phase = .queued ∨ rq.phase = .cancelling → rq.hasReplied = false) :
    (s.setRequest q rq).RequestsWF where
  replied_iff q' rq' hq' := by
    obtain ⟨_, rfl⟩ | ⟨_, hq'⟩ := Table.of_insert hq'
    · exact hreplied
    · exact h.replied_iff q' rq' hq'
  unreplied q' rq' hq' := by
    obtain ⟨_, rfl⟩ | ⟨_, hq'⟩ := Table.of_insert hq'
    · exact hfresh
    · exact h.unreplied q' rq' hq'
  queued q' := by
    by_cases hq : q' = q
    · subst hq
      rw [show (s.setRequest q' rq).acceptorStrand = s.acceptorStrand from rfl, hzero]
      exact Nat.zero_le _
    · have hsame : (s.setRequest q rq).isQueued q' = s.isQueued q' := by
        simp [isQueued, Server.setRequest, hq]
      rw [hsame]
      exact h.queued q'

/-- A new request is queued, with one task. -/
theorem RequestsWF.requested {s : Server} (h : s.RequestsWF) (hwf : s.WF)
    (c id active r ptr : Nat) : (s.requested c id active r ptr).RequestsWF := by
  have hnew : s.requests s.nextRequest = none := by
    cases hq : s.requests s.nextRequest with
    | none => rfl
    | some rq => exact absurd (hwf.request_lt _ rq hq) (Nat.lt_irrefl _)
  have hzero : s.acceptorStrand.count (.handleNewRequest s.nextRequest) = 0 := by
    have hcount := h.queued s.nextRequest
    have hfalse : s.isQueued s.nextRequest = false := by simp [isQueued, hnew]
    rw [hfalse] at hcount
    exact Nat.le_zero.mp hcount
  constructor
  case replied_iff =>
    intro q rq hq
    obtain ⟨_, rfl⟩ | ⟨_, hq⟩ := Table.of_insert hq
    · simp
    · exact h.replied_iff q rq hq
  case unreplied =>
    intro q rq hq
    obtain ⟨_, rfl⟩ | ⟨_, hq⟩ := Table.of_insert hq
    · simp
    · exact h.unreplied q rq hq
  case queued =>
    intro q
    show (s.acceptorStrand ++ [AcceptorTask.handleNewRequest s.nextRequest]).count
      (AcceptorTask.handleNewRequest q) ≤ _
    rw [List.count_append]
    by_cases hq : q = s.nextRequest
    · subst hq
      rw [hzero]
      simp [isQueued, Server.requested, Server.setRequest, Server.post]
    · have hcount := h.queued q
      have hsame : (s.requested c id active r ptr).isQueued q = s.isQueued q := by
        simp [isQueued, Server.requested, Server.setRequest, Server.post, hq]
      rw [hsame]
      simpa [Ne.symm hq] using hcount

theorem replied_iff_of_replied (rq : Request) :
    rq.replied.hasReplied = true ↔ rq.replied.dataWeakPtr = none := by
  simp [Request.replied]

/-- Every step of the server keeps it. -/
theorem Moves.requestsWF {s s' : Server} {l : Step} {es : List (Nat × Event)}
    (h : Moves s l s' es) (hwf : s.WF) (hr : s.RequestsWF) : s'.RequestsWF := by
  have houtside : ∀ (c : Nat) (f : Connection → Connection), (s.onConnection c f).RequestsWF :=
    fun c f => hr.same (by simp) (by simp)
  cases h with
  | accept => exact hr.same rfl fun _ => Nat.le_refl _
  | strand => exact hr.same rfl fun _ => Nat.le_refl _
  | @ready c _ _ k _ t _ _ _ _ hk hm _ _ _ hst =>
      have hquiet := hwf.setStrand_quiet hk hm fun hclosed => hst ▸ hclosed
      have hset : (s.setStrand c k.connectionId t).RequestsWF := hr.same rfl fun _ => Nat.le_refl _
      exact hset.requested hquiet _ _ _ _ _
  | @closing c k _ t =>
      have hset : (s.setStrand c k.connectionId t).RequestsWF := hr.same rfl fun _ => Nat.le_refl _
      exact hset.post (by simp)
  | closeConnection htasks =>
      have hpop := hr.withTasks htasks
      exact hpop.same rfl fun _ => Nat.le_refl _
  | noRequest htasks => exact hr.withTasks htasks
  | lost htasks =>
      have hpop := hr.withTasks htasks
      exact hpop.same rfl fun _ => Nat.le_refl _
  | @notRouted q ptr rq rest htasks hq hg =>
      have hpop := hr.withTasks htasks
      exact hpop.setRequest _ (hr.count_eq_zero_of_task htasks).2 (hr.replied_iff q rq hq)
        fun _ => hg.hasReplied_eq
  | @stored q ptr rq rest htasks hq hg =>
      have hpop := hr.withTasks htasks
      have hset := hpop.setRequest (rq.withPhase .held)
        (hr.count_eq_zero_of_task htasks).2 (hr.replied_iff q rq hq) fun _ => hg.hasReplied_eq
      exact hset.same rfl fun _ => Nat.le_refl _
  | handlerDeleted htasks =>
      have hpop := hr.withTasks htasks
      exact hpop.same rfl fun _ => Nat.le_refl _
  | denied => exact hr
  | @commit q ptr rq hq hphase hg =>
      refine RequestsWF.setRequest (houtside _ _) _ ?_ (replied_iff_of_replied rq) ?_
      · simpa using hr.count_eq_zero hq (by simp [hphase])
      · simp [Request.replied, hphase]
  | @cancel q ptr rq hq hphase hg =>
      refine RequestsWF.setRequest ?_ _ ?_ (replied_iff_of_replied rq) ?_
      · exact hr.same (by simp) (by simp)
      · simpa using hr.count_eq_zero hq (by simp [hphase])
      · simp [Request.replied, hphase]
  | edit => exact houtside _ _
  | @release q rq hq hphase =>
      have hzero := hr.count_eq_zero hq (by simp [hphase])
      split
      · exact hr.setRequest _ hzero (hr.replied_iff q rq hq) (by simp [Request.withPhase])
      · refine RequestsWF.setRequest (hr.post (by simp)) _ ?_ (hr.replied_iff q rq hq)
          (by simp [Request.withPhase])
        simpa [Server.post] using hzero
  | @destroyed q rq hq hphase =>
      exact hr.setRequest _ (hr.count_eq_zero hq (by simp [hphase])) (hr.replied_iff q rq hq)
        (by simp [Request.withPhase])
  | @cancelling q ptr rq hq hphase hg =>
      exact hr.setRequest _ (hr.count_eq_zero hq (by simp [hphase])) (hr.replied_iff q rq hq)
        fun _ => hg.hasReplied_eq
  | @destroyValid q ptr rq hq hphase hg =>
      refine RequestsWF.setRequest ?_ _ ?_ (replied_iff_of_replied rq) ?_
      · exact hr.same (by simp) (by simp)
      · simpa using hr.count_eq_zero hq (by simp [hphase])
      · simp [Request.withPhase]
  | stop => exact hr.same rfl fun _ => Nat.le_refl _

/-! ## Queued requests have a task -/

/-- A queued request is held by a task of the acceptor's strand. -/
def QueuedHaveTasks (s : Server) : Prop :=
  s.terminated = false → ∀ q rq, s.requests q = some rq → rq.phase = .queued →
    .handleNewRequest q ∈ s.acceptorStrand

/-- A step after which no request is queued that was not, and no such task is gone. -/
theorem QueuedHaveTasks.mono {s s' : Server} (h : s.QueuedHaveTasks)
    (hterminated : s'.terminated = s.terminated)
    (hrequests : ∀ q rq, s'.requests q = some rq → rq.phase = .queued →
      s.requests q = some rq)
    (htasks : ∀ q rq, s'.requests q = some rq → rq.phase = .queued →
      .handleNewRequest q ∈ s.acceptorStrand → .handleNewRequest q ∈ s'.acceptorStrand) :
    s'.QueuedHaveTasks := by
  intro hlive q rq hq hphase
  have hmem := h (hterminated ▸ hlive) q rq (hrequests q rq hq hphase) hphase
  exact htasks q rq hq hphase hmem

/-- A request that changes is not queued afterwards. -/
theorem request_of_setRequest {s : Server} {q q' : Nat} {rq rq' : Request}
    (hne : rq.phase ≠ .queued) (hq : (s.setRequest q rq).requests q' = some rq')
    (hphase : rq'.phase = .queued) : q' ≠ q ∧ s.requests q' = some rq' := by
  obtain ⟨_, rfl⟩ | hold := Table.of_insert hq
  · exact absurd hphase hne
  · exact hold

theorem QueuedHaveTasks.setRequest {s : Server} (h : s.QueuedHaveTasks) {q : Nat} {rq : Request}
    (hne : rq.phase ≠ .queued) : (s.setRequest q rq).QueuedHaveTasks :=
  h.mono rfl (fun _ _ hq hphase => (request_of_setRequest hne hq hphase).2) fun _ _ _ _ hmem => hmem

theorem QueuedHaveTasks.post {s : Server} (h : s.QueuedHaveTasks) (task : AcceptorTask) :
    (s.post task).QueuedHaveTasks :=
  h.mono rfl (fun _ _ hq _ => hq) fun _ _ _ _ hmem => List.mem_append_left _ hmem

theorem QueuedHaveTasks.onConnection {s : Server} (h : s.QueuedHaveTasks) (c : Nat)
    (f : Connection → Connection) : (s.onConnection c f).QueuedHaveTasks :=
  h.mono (by simp) (fun _ _ hq _ => by simpa using hq) fun _ _ _ _ hmem => by simpa using hmem

/-- The task of a request that is not queued any more may go. -/
theorem QueuedHaveTasks.pop {s s' : Server} (h : s.QueuedHaveTasks) {task : AcceptorTask}
    {rest : List AcceptorTask} (htasks : s.acceptorStrand = task :: rest)
    (hterminated : s'.terminated = s.terminated) (hrest : s'.acceptorStrand = rest)
    (hrequests : ∀ q rq, s'.requests q = some rq → rq.phase = .queued →
      s.requests q = some rq ∧ task ≠ .handleNewRequest q) : s'.QueuedHaveTasks := by
  refine h.mono hterminated (fun q rq hq hphase => (hrequests q rq hq hphase).1) ?_
  intro q rq hq hphase hmem
  rw [htasks, List.mem_cons] at hmem
  obtain heq | hmem := hmem
  · exact absurd heq.symm (hrequests q rq hq hphase).2
  · rw [hrest]
    exact hmem

/-- Every step of the server keeps it. -/
theorem Moves.queuedHaveTasks {s s' : Server} {l : Step} {es : List (Nat × Event)}
    (h : Moves s l s' es) (hs : s.QueuedHaveTasks) : s'.QueuedHaveTasks := by
  cases h with
  | accept => exact hs
  | strand => exact hs
  | ready =>
      intro hlive q rq hq hphase
      obtain ⟨rfl, _⟩ | ⟨_, hq⟩ := Table.of_insert hq
      · exact List.mem_append_right _ (List.mem_singleton_self _)
      · exact List.mem_append_left _ (hs hlive q rq hq hphase)
  | closing => exact hs.post _
  | closeConnection htasks => exact hs.pop htasks rfl rfl fun _ _ hq _ => ⟨hq, by simp⟩
  | @noRequest q rest _ htasks hnone =>
      refine hs.pop htasks rfl rfl fun q' rq hq _ => ⟨hq, ?_⟩
      intro heq
      cases heq
      have hsame : s.requests q = some rq := hq
      rw [hnone] at hsame
      cases hsame
  | lost => exact fun hlive => nomatch hlive
  | notRouted htasks =>
      refine hs.pop htasks rfl rfl fun q' rq hq hphase => ?_
      obtain ⟨hne, hold⟩ := request_of_setRequest (by simp [Request.withPhase]) hq hphase
      exact ⟨hold, by simpa using Ne.symm hne⟩
  | @stored q _ rq rest htasks =>
      refine hs.pop htasks rfl rfl fun q' rq' hq hphase => ?_
      obtain ⟨hne, hold⟩ := @request_of_setRequest (s.withTasks rest) q q'
        (rq.withPhase .held) rq'
        (by simp [Request.withPhase]) hq hphase
      exact ⟨hold, by simpa using Ne.symm hne⟩
  | handlerDeleted htasks => exact hs.pop htasks rfl rfl fun _ _ hq _ => ⟨hq, by simp⟩
  | denied => exact hs
  | commit _ hphase =>
      exact (hs.onConnection _ _).setRequest (by simp [Request.replied, hphase])
  | cancel _ hphase =>
      exact ((hs.onConnection _ _).onConnection _ _).setRequest (by simp [Request.replied, hphase])
  | edit => exact hs.onConnection _ _
  | release =>
      split
      · exact hs.setRequest (by simp [Request.withPhase])
      · exact (hs.post _).setRequest (by simp [Request.withPhase])
  | destroyed => exact hs.setRequest (by simp [Request.withPhase])
  | cancelling => exact hs.setRequest (by simp [Request.withPhase])
  | destroyValid =>
      exact ((hs.onConnection _ _).onConnection _ _).setRequest (by simp [Request.withPhase])
  | stop => exact hs

end Santiago.Server
