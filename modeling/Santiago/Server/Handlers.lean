import Santiago.Server.Ownership

/-!
# Santiago.Server.Handlers

The server's map of request handlers, and the requests it is asked to handle.
A request may have lost its data by the time the acceptor's strand gets to it
or its destructor cancels it (`RequestGone`), and its id may have been used
again while the handler of the request before it is still stored
(`HandlerTaken`).  Nothing else goes wrong: these are the conditions under
which an exception leaves a task, or one of the two assertions fails.
-/

namespace Santiago.Server

open Effect Bytes PacketSocket Connection

/-! ## Requests that have lost their data -/

/-- The request's data is in the map it was made in, on an active connection. -/
def isStored (s : Server) (rq : Request) : Bool :=
  s.isActive rq.home && (s.connections rq.home).any fun k =>
    rq.dataWeakPtr.any fun ptr => k.strand.connection.data.isValidRequest rq.requestId ptr

/-- While a request has not replied, nothing but the map holds its data. -/
theorem grants_iff_isStored {s : Server} (hi : s.Invariant) {q : Nat} {rq : Request}
    (hq : s.requests q = some rq) (hphase : rq.phase = .queued ∨ rq.phase = .cancelling) :
    (∃ ptr, s.Grants rq ptr) ↔ s.isStored rq = true := by
  have hreplied := hi.requestsWF.unreplied q rq hq hphase
  have hdestroyed : rq.phase ≠ .destroyed := by
    obtain h | h := hphase <;> simp [h]
  constructor
  · intro ⟨ptr, hg⟩
    have hdata := hg.dataWeakPtr_eq
    have hlock := hg.lockData_eq
    rw [lockData, hdata, Bool.or_eq_true] at hlock
    obtain hmap | hqueue := hlock
    · rw [isStored, hdata]
      exact hmap
    · -- a queued reply would be a second custodian
      obtain ⟨k, hk, hmem⟩ := (Option.any_eq_true _ _).mp hqueue
      have hreply : s.custody.Holds ptr (.reply rq.connectionWeakPtr rq.requestId) := by
        show (rq.requestId, ptr) ∈ s.custody.replies rq.connectionWeakPtr
        rw [replies_custody hk]
        exact mem_replies.mpr (by simpa using hmem)
      have hrequest : s.custody.Holds ptr (.request q) :=
        ⟨_, (request_custody hq).trans (owes_of_data hdestroyed hdata), rfl⟩
      have heq := hi.sound.unique _ _ _ hreply hrequest
      cases heq
  · intro hstored
    rw [isStored, Bool.and_eq_true] at hstored
    obtain ⟨hactive, hmap⟩ := hstored
    cases hdata : rq.dataWeakPtr with
    | none => simp [hdata] at hmap
    | some ptr =>
        have howes := (request_custody hq).trans (owes_of_data hdestroyed hdata)
        have hconn := hi.sound.connection_eq q _ howes hactive
        refine ⟨ptr, hreplied, hdata, ?_, ?_⟩
        · rw [lockConnection, show rq.connectionWeakPtr = rq.home from hconn]
          exact hactive
        · rw [hdata] at hmap
          rw [lockData, hdata, Bool.or_eq_true, Bool.and_eq_true]
          exact .inl ⟨hactive, hmap⟩

/-- The step works on a request whose data is not stored any more. -/
def RequestGone (s : Server) : Step → Prop
  | .acceptorTask _ => ∃ q rq rest, s.acceptorStrand = .handleNewRequest q :: rest ∧
      s.requests q = some rq ∧ s.isStored rq = false
  | .destroyValid q => ∃ rq, s.requests q = some rq ∧ s.isStored rq = false
  | _ => False

/-- An exception leaves the step, or the assertion of the destructor fails. -/
def Breaks (s : Server) (l : Step) : Prop :=
  (∃ w, (machine.act l s).exit = .throw w) ∨
    (machine.act l s).exit = .abort "Fastcgi::Request::~Request: false"

/-- The request of a task that is still to be handled is queued. -/
theorem phase_of_task {s : Server} (hi : s.Invariant) {q : Nat} {rq : Request}
    {rest : List AcceptorTask} (htasks : s.acceptorStrand = .handleNewRequest q :: rest)
    (hq : s.requests q = some rq) : rq.phase = .queued := by
  have hqueued := (hi.requestsWF.count_eq_zero_of_task htasks).1
  simpa [isQueued, hq] using hqueued

/-- An exception leaves the step, or the destructor's assertion fails, exactly
when the request is gone. -/
theorem breaks_iff {s : Server} (hi : s.Invariant) {l : Step} (he : machine.enabled s l = true) :
    s.Breaks l ↔ s.RequestGone l := by
  constructor
  · intro hbreaks
    have hends := ends hi.wf he
    rw [Breaks] at hbreaks
    generalize machine.act l s = o at hends hbreaks
    cases hends with
    | ret => simp at hbreaks
    | lost htasks hq hn =>
        refine ⟨_, _, _, htasks, hq, ?_⟩
        rw [Bool.eq_false_iff]
        intro hstored
        obtain ⟨ptr, hg⟩ :=
          (grants_iff_isStored hi hq (.inl (phase_of_task hi htasks hq))).mpr hstored
        exact hn ptr hg
    | abort hdies =>
        obtain ⟨w, hw⟩ | hw := hbreaks
        · cases hw
        · simp only [Exit.abort.injEq] at hw
          cases hdies with
          | strand _ hdies =>
              have hmem := hdies.mem
              rw [hw] at hmem
              simp [closedAssertions] at hmem
          | destroyValid hq hphase hn =>
              refine ⟨_, hq, ?_⟩
              rw [Bool.eq_false_iff]
              intro hstored
              obtain ⟨ptr, hg⟩ := (grants_iff_isStored hi hq (.inr hphase)).mpr hstored
              exact hn ptr hg
          | _ => simp at hw
  · intro hgone
    cases l with
    | acceptorTask routed =>
        obtain ⟨q, rq, rest, htasks, hq, hstored⟩ := hgone
        have hn : ∀ ptr, ¬ s.Grants rq ptr := by
          intro ptr hg
          have htrue :=
            (grants_iff_isStored hi hq (.inl (phase_of_task hi htasks hq))).mp ⟨ptr, hg⟩
          rw [hstored] at htrue
          cases htrue
        obtain ⟨w, hrun⟩ := acceptorTask_lost htasks hq hn routed
        have hact : machine.act (.acceptorTask routed) s = _ := hrun
        exact .inl ⟨w, by rw [hact]⟩
    | destroyValid q =>
        obtain ⟨rq, hq, hstored⟩ := hgone
        obtain ⟨rq', hq', hphase⟩ := request_of_inPhase he
        rw [hq, Option.some.injEq] at hq'
        subst hq'
        have hact : machine.act (.destroyValid q) s = Server.destroyValid q rq s :=
          withRequest_run hq _
        obtain ⟨ptr, hg, _⟩ | ⟨_, hrun⟩ := destroyValid_run s q rq
        · have htrue := (grants_iff_isStored hi hq (.inr hphase)).mp ⟨ptr, hg⟩
          rw [hstored] at htrue
          cases htrue
        · exact .inr (by rw [hact, hrun])
    | _ => exact hgone.elim

/-- **When a disappearing request breaks the server.**  In every run, up to
and including a step that ends the process, no exception leaves a task and
the destructor's assertion holds exactly if no step works on a request whose
data is gone from the map of its connection. -/
theorem breaks_iff_requestGone {tr : List (Fired Server Step)} {s : Server} {l : Step}
    (h : machine.Run init tr s) (he : machine.enabled s l = true) :
    (∀ f ∈ tr ++ [⟨s, l⟩], ¬ f.pre.Breaks f.label) ↔
      ∀ f ∈ tr ++ [⟨s, l⟩], ¬ f.pre.RequestGone f.label :=
  h.forall_attempted_iff (P := fun s l => ¬ s.Breaks l) (Q := fun s l => ¬ s.RequestGone l) he
    fun _ _ _ hrun he => not_congr (breaks_iff (invariant_of_run hrun) he)

/-- A request that nobody aborts is routed, and none of the steps up to there
works on lost data. -/
theorem breaks_iff_requestGone_routed : ∃ tr s, machine.Run init tr s ∧
    ∀ f ∈ tr ++ [⟨s, .acceptorTask true⟩], ¬ f.pre.RequestGone f.label := by
  obtain ⟨tr, s, hrun, hs⟩ := Machine.exists_run_of_exec machine init
    [.accept [] fun _ => 0, .strand 0 (.handleRead false (emptyRequest 1)), .strand 0 .nextPacket,
      .strand 0 .nextPacket, .strand 0 .nextPacket]
    (fun tr s => machine.enabled s (.acceptorTask true) &&
      (tr ++ [(⟨s, .acceptorTask true⟩ : Fired Server Step)]).all fun f =>
        decide ((machine.act f.label f.pre).exit = Exit.ret ())) (by decide)
  simp only [Bool.and_eq_true, List.all_eq_true, decide_eq_true_eq] at hs
  refine ⟨tr, s, hrun, (breaks_iff_requestGone hrun hs.1).mp fun f hf => ?_⟩
  simp [Breaks, hs.2 f hf]

/-- An abort between the request-ready callback and the acceptor's task: the
exception of `getConnectionAndRequestData` leaves the task. -/
theorem throws_after_abort : ∃ tr s, machine.Run init tr s ∧
    machine.enabled s (.acceptorTask true) = true ∧
    (machine.act (.acceptorTask true) s).exit =
      .throw "The request is not active or aborted" := by
  obtain ⟨tr, s, hrun, hs⟩ := Machine.exists_run_of_exec machine init
    [.accept [] fun _ => 0,
      .strand 0 (.handleRead false (emptyRequest 1 ++ [1, 2, 0, 1, 0, 0, 0, 0])),
      .strand 0 .nextPacket, .strand 0 .nextPacket, .strand 0 .nextPacket, .strand 0 .nextPacket]
    (fun _ s => machine.enabled s (.acceptorTask true) &&
      decide ((machine.act (.acceptorTask true) s).exit =
        .throw "The request is not active or aborted")) (by decide)
  rw [Bool.and_eq_true, decide_eq_true_eq] at hs
  exact ⟨tr, s, hrun, hs.1, hs.2⟩

/-! ## The map of handlers -/

/-- How many tasks are queued that delete the handler of `q`. -/
def deletes (s : Server) (id : Nat × Nat) (q : Nat) : Nat :=
  s.acceptorStrand.count (.handleRequestDeleteImpl id q)

/-- Handlers, the `Server::Request`s that users hold, and the tasks that
delete handlers fit together. -/
structure HandlersWF (s : Server) : Prop where
  handler : ∀ id q, s.activeRequestHandlers id = some q → ∃ rq, s.requests q = some rq ∧
    rq.getId = id ∧ rq.phase ≠ .queued ∧
      (s.status = .started → rq.phase = .held ∨ 0 < s.deletes id q)
  held : ∀ q rq, s.requests q = some rq → rq.phase = .held →
    s.activeRequestHandlers rq.getId = some q
  deleting : ∀ id q, 0 < s.deletes id q → s.activeRequestHandlers id = some q ∧
    ∃ rq, s.requests q = some rq ∧ rq.phase ≠ .queued ∧ rq.phase ≠ .held
  once : ∀ id q, s.deletes id q ≤ 1

theorem handlersWF_init : init.HandlersWF where
  handler _ _ h := nomatch h
  held _ _ h := nomatch h
  deleting _ _ h := absurd h (Nat.lt_irrefl 0)
  once _ _ := Nat.zero_le _

/-- A step that touches neither handlers nor requests nor their tasks. -/
theorem HandlersWF.same {s s' : Server} (h : s.HandlersWF) (hrequests : s'.requests = s.requests)
    (hhandlers : s'.activeRequestHandlers = s.activeRequestHandlers)
    (hstatus : s'.status = .started → s.status = .started)
    (hdeletes : ∀ id q, s'.deletes id q = s.deletes id q) : s'.HandlersWF where
  handler id q hh := by
    rw [hhandlers] at hh
    obtain ⟨rq, hq, hid, hphase, hlive⟩ := h.handler id q hh
    refine ⟨rq, hrequests ▸ hq, hid, hphase, fun hs => ?_⟩
    rw [hdeletes]
    exact hlive (hstatus hs)
  held q rq hq hphase := by
    rw [hhandlers]
    exact h.held q rq (hrequests ▸ hq) hphase
  deleting id q hd := by
    rw [hdeletes] at hd
    rw [hhandlers, hrequests]
    exact h.deleting id q hd
  once id q := by
    rw [hdeletes]
    exact h.once id q

theorem HandlersWF.onConnection {s : Server} (h : s.HandlersWF) (c : Nat)
    (f : Connection → Connection) : (s.onConnection c f).HandlersWF :=
  h.same (by simp) (by simp) (by simp) fun _ _ => by simp [deletes]

/-- Posting the deletion of a handler adds one to its deletions. -/
theorem deletes_post (s : Server) (task : AcceptorTask) (id : Nat × Nat) (q : Nat) :
    (s.post task).deletes id q =
      s.deletes id q + if task = .handleRequestDeleteImpl id q then 1 else 0 := by
  rw [deletes, post, List.count_append, deletes]
  simp [List.count_singleton]

/-- Running the deletion of a handler takes one of its deletions. -/
theorem deletes_cons {s : Server} {task : AcceptorTask} {rest : List AcceptorTask}
    (htasks : s.acceptorStrand = task :: rest) (id : Nat × Nat) (q : Nat) :
    s.deletes id q =
      (s.withTasks rest).deletes id q +
        if task = .handleRequestDeleteImpl id q then 1 else 0 := by
  rw [deletes, htasks, List.count_cons]
  simp [deletes, withTasks]

theorem HandlersWF.post {s : Server} (h : s.HandlersWF) {task : AcceptorTask}
    (htask : ∀ id q, task ≠ .handleRequestDeleteImpl id q) : (s.post task).HandlersWF :=
  h.same rfl rfl id fun id q => by rw [deletes_post, if_neg (htask id q), Nat.add_zero]

theorem HandlersWF.withTasks {s : Server} (h : s.HandlersWF) {task : AcceptorTask}
    {rest : List AcceptorTask} (htasks : s.acceptorStrand = task :: rest)
    (htask : ∀ id q, task ≠ .handleRequestDeleteImpl id q) : (s.withTasks rest).HandlersWF :=
  h.same rfl rfl id fun id q => by rw [deletes_cons htasks, if_neg (htask id q), Nat.add_zero]

/-- A request that stays with its user, or stays with nobody, or leaves its
task for nobody. -/
theorem HandlersWF.setRequest {s : Server} (h : s.HandlersWF) {q : Nat} {rq rq' : Request}
    (hq : s.requests q = some rq) (hid : rq'.getId = rq.getId)
    (hheld : rq'.phase = .held ↔ rq.phase = .held)
    (hqueued : rq'.phase = .queued → rq.phase = .queued) : (s.setRequest q rq').HandlersWF where
  handler id q₁ hh := by
    obtain ⟨rq₁, hq₁, hid₁, hphase, hlive⟩ := h.handler id q₁ hh
    by_cases heq : q₁ = q
    · subst heq
      rw [hq, Option.some.injEq] at hq₁
      subst hq₁
      refine ⟨rq', Function.update_self .., hid.trans hid₁, fun hp => hphase (hqueued hp), ?_⟩
      intro hs
      rw [hheld]
      exact hlive hs
    · exact ⟨rq₁, (Function.update_of_ne heq ..).trans hq₁, hid₁, hphase, hlive⟩
  held q₁ rq₁ hq₁ hphase := by
    obtain ⟨rfl, rfl⟩ | ⟨_, hq₁⟩ := Table.of_insert hq₁
    · rw [hid]
      exact h.held q₁ rq hq (hheld.mp hphase)
    · exact h.held q₁ rq₁ hq₁ hphase
  deleting id q₁ hd := by
    obtain ⟨hh, rq₁, hq₁, hne, hne'⟩ := h.deleting id q₁ hd
    refine ⟨hh, ?_⟩
    by_cases heq : q₁ = q
    · subst heq
      rw [hq, Option.some.injEq] at hq₁
      subst hq₁
      exact ⟨rq', Function.update_self .., fun hp => hne (hqueued hp),
        fun hp => hne' (hheld.mp hp)⟩
    · exact ⟨rq₁, (Function.update_of_ne heq ..).trans hq₁, hne, hne'⟩
  once := h.once

/-- A new request brings no handler with it, and posts no deletion. -/
theorem HandlersWF.requested {s : Server} (h : s.HandlersWF) (hwf : s.WF)
    (c id active r ptr : Nat) : (s.requested c id active r ptr).HandlersWF := by
  have hold : ∀ q rq, s.requests q = some rq →
      (s.requested c id active r ptr).requests q = some rq := by
    intro q rq hq
    have hne : q ≠ s.nextRequest := Nat.ne_of_lt (hwf.request_lt q rq hq)
    exact (Function.update_of_ne hne ..).trans hq
  have hdeletes : ∀ id' q, (s.requested c id active r ptr).deletes id' q = s.deletes id' q := by
    intro id' q
    have hpost := deletes_post s (.handleNewRequest s.nextRequest) id' q
    rw [if_neg (by simp), Nat.add_zero] at hpost
    exact hpost
  constructor
  case handler =>
    intro id' q hh
    obtain ⟨rq, hq, hid, hphase, hlive⟩ := h.handler id' q hh
    refine ⟨rq, hold q rq hq, hid, hphase, ?_⟩
    rw [hdeletes]
    exact hlive
  case held =>
    intro q rq hq hphase
    obtain ⟨_, rfl⟩ | ⟨_, hq⟩ := Table.of_insert hq
    · cases hphase
    · exact h.held q rq hq hphase
  case deleting =>
    intro id' q hd
    rw [hdeletes] at hd
    obtain ⟨hh, rq, hq, hne⟩ := h.deleting id' q hd
    exact ⟨hh, rq, hold q rq hq, hne⟩
  case once =>
    intro id' q
    rw [hdeletes]
    exact h.once id' q

/-- A handler is stored under an id that no held request has, and that no task deletes. -/
theorem HandlersWF.stored {s : Server} (h : s.HandlersWF) {q : Nat} {rq : Request}
    (hq : s.requests q = some rq) (hphase : rq.phase = .queued)
    (hfree : s.activeRequestHandlers rq.getId = none) :
    HandlersWF { s.setRequest q (rq.withPhase .held) with
      activeRequestHandlers := Function.update s.activeRequestHandlers rq.getId (some q) } := by
  have hne : ∀ {id q'}, s.activeRequestHandlers id = some q' → id ≠ rq.getId := by
    rintro id q' hh rfl
    rw [hfree] at hh
    cases hh
  constructor
  case handler =>
    intro id q' hh
    obtain ⟨rfl, rfl⟩ | ⟨_, hh⟩ := Table.of_insert hh
    · exact ⟨rq.withPhase .held, Function.update_self .., rfl, by simp [Request.withPhase],
        fun _ => .inl rfl⟩
    · obtain ⟨rq', hq', hid, hphase', hlive⟩ := h.handler id q' hh
      have hqq : q' ≠ q := by
        rintro rfl
        rw [hq, Option.some.injEq] at hq'
        exact hphase' (hq' ▸ hphase)
      exact ⟨rq', (Function.update_of_ne hqq ..).trans hq', hid, hphase', hlive⟩
  case held =>
    intro q' rq' hq' hphase'
    obtain ⟨rfl, rfl⟩ | ⟨_, hq'⟩ := Table.of_insert hq'
    · exact Function.update_self ..
    · have hh := h.held q' rq' hq' hphase'
      exact (Function.update_of_ne (hne hh) ..).trans hh
  case deleting =>
    intro id q' hd
    obtain ⟨hh, rq', hq', hne₁, hne₂⟩ := h.deleting id q' hd
    have hqq : q' ≠ q := by
      rintro rfl
      rw [hq, Option.some.injEq] at hq'
      exact hne₁ (hq' ▸ hphase)
    exact ⟨(Function.update_of_ne (hne hh) ..).trans hh, rq',
      (Function.update_of_ne hqq ..).trans hq', hne₁, hne₂⟩
  case once => exact h.once

/-- `t` is `s`, with at most the task behind it that deletes the handler of `q`. -/
structure PostsDeletion (s : Server) (q : Nat) (rq : Request) (t : Server) : Prop where
  requests_eq : t.requests = s.requests
  handlers_eq : t.activeRequestHandlers = s.activeRequestHandlers
  status_eq : t.status = s.status
  deletes_le : ∀ id q', s.deletes id q' ≤ t.deletes id q'
  deletes_cases : ∀ id q', t.deletes id q' = s.deletes id q' ∨
    id = rq.getId ∧ q' = q ∧ t.deletes id q' = 1
  posted : s.status = .started → 0 < t.deletes rq.getId q

/-- Nobody deletes the handler of a request that is held. -/
theorem HandlersWF.deletes_eq_zero {s : Server} (h : s.HandlersWF) {q : Nat} {rq : Request}
    (hq : s.requests q = some rq) (hphase : rq.phase = .held) (id : Nat × Nat) :
    s.deletes id q = 0 := by
  by_contra hpos
  obtain ⟨_, rq', hq', _, hne⟩ := h.deleting id q (Nat.pos_of_ne_zero hpos)
  rw [hq, Option.some.injEq] at hq'
  exact hne (hq' ▸ hphase)

/-- A request that is destroyed posts the deletion of its handler, unless the
server has stopped. -/
theorem HandlersWF.postsDeletion {s : Server} (h : s.HandlersWF) {q : Nat} {rq : Request}
    (hq : s.requests q = some rq) (hphase : rq.phase = .held) :
    s.PostsDeletion q rq (if s.status = .stopped then s
      else s.post (.handleRequestDeleteImpl rq.getId q)) := by
  split
  · next hstopped =>
      refine ⟨rfl, rfl, rfl, fun _ _ => Nat.le_refl _, fun _ _ => .inl rfl, fun hs => ?_⟩
      rw [hstopped] at hs
      cases hs
  · refine ⟨rfl, rfl, rfl, fun id q' => ?_, fun id q' => ?_, fun _ => ?_⟩
    · rw [deletes_post]
      exact Nat.le_add_right _ _
    · rw [deletes_post]
      split
      · next heq =>
          cases heq
          exact .inr ⟨rfl, rfl, by rw [h.deletes_eq_zero hq hphase]⟩
      · exact .inl rfl
    · rw [deletes_post, if_pos rfl]
      exact Nat.succ_pos _

/-- A held request is let go once the deletion of its handler is posted. -/
theorem HandlersWF.released {s t : Server} (h : s.HandlersWF) {q : Nat} {rq : Request}
    (hq : s.requests q = some rq) (hphase : rq.phase = .held) (ht : s.PostsDeletion q rq t) :
    (t.setRequest q (rq.withPhase .released)).HandlersWF := by
  obtain ⟨hrequests, hhandlers, hstatus, hle, hcases, hposted⟩ := ht
  have hhandler := h.held q rq hq hphase
  have hself : (t.setRequest q (rq.withPhase .released)).requests q =
      some (rq.withPhase .released) := Function.update_self ..
  have hother : ∀ {q'}, q' ≠ q → (t.setRequest q (rq.withPhase .released)).requests q' =
      s.requests q' := fun hne => (Function.update_of_ne hne ..).trans (by rw [hrequests])
  constructor
  case handler =>
    intro id q' hh
    have hh : s.activeRequestHandlers id = some q' := hhandlers ▸ hh
    obtain ⟨rq', hq', hid, hphase', hlive⟩ := h.handler id q' hh
    by_cases heq : q' = q
    · subst heq
      rw [hq, Option.some.injEq] at hq'
      subst hq'
      refine ⟨_, hself, hid, by simp [Request.withPhase], fun hs => .inr ?_⟩
      rw [← hid]
      exact hposted (hstatus ▸ hs)
    · refine ⟨rq', (hother heq).trans hq', hid, hphase', fun hs => ?_⟩
      obtain hheld | hpos := hlive (hstatus ▸ hs)
      · exact .inl hheld
      · exact .inr (Nat.lt_of_lt_of_le hpos (hle id q'))
  case held =>
    intro q' rq' hq' hphase'
    obtain ⟨_, rfl⟩ | ⟨_, hq'⟩ := Table.of_insert hq'
    · cases hphase'
    · show t.activeRequestHandlers rq'.getId = some q'
      rw [hhandlers]
      exact h.held q' rq' (hrequests ▸ hq') hphase'
  case deleting =>
    intro id q' hd
    show t.activeRequestHandlers id = some q' ∧ _
    rw [hhandlers]
    obtain hsame | ⟨rfl, rfl, _⟩ := hcases id q'
    · have hpos : 0 < s.deletes id q' := hsame ▸ hd
      obtain ⟨hh, rq', hq', hne⟩ := h.deleting id q' hpos
      have hqq : q' ≠ q := by
        rintro rfl
        rw [h.deletes_eq_zero hq hphase] at hpos
        exact absurd hpos (Nat.lt_irrefl 0)
      exact ⟨hh, rq', (hother hqq).trans hq', hne⟩
    · exact ⟨hhandler, _, hself, by simp [Request.withPhase], by simp [Request.withPhase]⟩
  case once =>
    intro id q'
    show t.deletes id q' ≤ 1
    obtain hsame | ⟨_, _, hone⟩ := hcases id q'
    · rw [hsame]
      exact h.once id q'
    · omega

/-- A request that is let go has its handler deleted, unless the server has stopped. -/
theorem HandlersWF.release {s : Server} (h : s.HandlersWF) {q : Nat} {rq : Request}
    (hq : s.requests q = some rq) (hphase : rq.phase = .held) :
    ((if s.status = .stopped then s
      else s.post (.handleRequestDeleteImpl rq.getId q)).setRequest q
        (rq.withPhase .released)).HandlersWF :=
  h.released hq hphase (h.postsDeletion hq hphase)

/-- A task deletes the handler of its own request, and no other. -/
theorem HandlersWF.handlerDeleted {s : Server} (h : s.HandlersWF) {id : Nat × Nat} {q : Nat}
    {rest : List AcceptorTask} (htasks : s.acceptorStrand = .handleRequestDeleteImpl id q :: rest) :
    HandlersWF { s.withTasks rest with
      activeRequestHandlers := Function.update s.activeRequestHandlers id none } := by
  have hcount := deletes_cons htasks
  have hself : 0 < s.deletes id q := by
    rw [hcount, if_pos rfl]
    exact Nat.succ_pos _
  obtain ⟨hhandler, rq, hq, _, hnot⟩ := h.deleting id q hself
  -- what is left of the tasks was there before, and is not about this id
  have hother : ∀ id' q', 0 < (s.withTasks rest).deletes id' q' →
      0 < s.deletes id' q' ∧ id' ≠ id := by
    intro id' q' hpos
    have hle := hcount id' q'
    refine ⟨by omega, ?_⟩
    rintro rfl
    have hpos' : 0 < s.deletes id' q' := by omega
    obtain ⟨hh, _⟩ := h.deleting id' q' hpos'
    rw [hhandler, Option.some.injEq] at hh
    subst hh
    have honce := h.once id' q
    rw [hcount, if_pos rfl] at honce
    omega
  constructor
  case handler =>
    intro id' q' hh
    obtain ⟨hne, hh⟩ := Table.of_erase hh
    obtain ⟨rq', hq', hid, hphase, hlive⟩ := h.handler id' q' hh
    refine ⟨rq', hq', hid, hphase, fun hs => ?_⟩
    obtain hheld | hpos := hlive hs
    · exact .inl hheld
    · rw [hcount, if_neg (by simpa using fun heq => absurd heq.symm hne), Nat.add_zero] at hpos
      exact .inr hpos
  case held =>
    intro q' rq' hq' hphase
    have hh := h.held q' rq' hq' hphase
    have hne : rq'.getId ≠ id := by
      rintro rfl
      rw [hhandler, Option.some.injEq] at hh
      subst hh
      have hsame : s.requests q = some rq' := hq'
      rw [hq, Option.some.injEq] at hsame
      exact hnot (hsame ▸ hphase)
    exact (Function.update_of_ne hne ..).trans hh
  case deleting =>
    intro id' q' hd
    obtain ⟨hpos, hne⟩ := hother id' q' hd
    obtain ⟨hh, hrest⟩ := h.deleting id' q' hpos
    exact ⟨(Function.update_of_ne hne ..).trans hh, hrest⟩
  case once =>
    intro id' q'
    have honce := h.once id' q'
    rw [hcount] at honce
    show (s.withTasks rest).deletes id' q' ≤ 1
    omega

/-- Every step of the server keeps it. -/
theorem Moves.handlersWF {s s' : Server} {l : Step} {es : List (Nat × Event)}
    (h : Moves s l s' es) (hi : s.Invariant) (hh : s.HandlersWF) : s'.HandlersWF := by
  cases h with
  | accept => exact hh.same rfl rfl id fun _ _ => rfl
  | strand => exact hh.same rfl rfl id fun _ _ => rfl
  | @ready c _ _ k _ t _ _ _ _ hk hm _ _ _ hst =>
      have hquiet := hi.wf.setStrand_quiet hk hm fun hclosed => hst ▸ hclosed
      have hset : (s.setStrand c k.connectionId t).HandlersWF :=
        hh.same rfl rfl id fun _ _ => rfl
      exact hset.requested hquiet _ _ _ _ _
  | @closing c k _ t =>
      have hset : (s.setStrand c k.connectionId t).HandlersWF :=
        hh.same rfl rfl id fun _ _ => rfl
      exact hset.post (by simp)
  | closeConnection htasks =>
      have hpop := hh.withTasks htasks (by simp)
      exact hpop.same rfl rfl id fun _ _ => rfl
  | noRequest htasks => exact hh.withTasks htasks (by simp)
  | lost htasks =>
      have hpop := hh.withTasks htasks (by simp)
      exact hpop.same rfl rfl id fun _ _ => rfl
  | notRouted htasks hq =>
      have hphase := phase_of_task hi htasks hq
      have hpop := hh.withTasks htasks (by simp)
      exact hpop.setRequest hq rfl (by simp [Request.withPhase, hphase]) (by simp [hphase])
  | stored htasks hq _ hfree =>
      have hpop := hh.withTasks htasks (by simp)
      exact hpop.stored hq (phase_of_task hi htasks hq) hfree
  | handlerDeleted htasks => exact hh.handlerDeleted htasks
  | denied => exact hh
  | @commit q ptr rq hq hphase =>
      have hsame : (s.committed rq ptr).requests q = some rq := by simpa using hq
      exact (hh.onConnection _ _).setRequest hsame rfl Iff.rfl fun hp => hp
  | @cancel q ptr rq hq hphase =>
      have hsame : ((s.edited rq ptr .cancelBuffers).committed rq ptr).requests q = some rq := by
        simpa using hq
      exact ((hh.onConnection _ _).onConnection _ _).setRequest hsame rfl Iff.rfl fun hp => hp
  | edit => exact hh.onConnection _ _
  | release hq hphase => exact hh.release hq hphase
  | destroyed hq hphase =>
      exact hh.setRequest hq rfl (by simp [Request.withPhase, hphase]) (by simp [Request.withPhase])
  | cancelling hq hphase =>
      exact hh.setRequest hq rfl (by simp [Request.withPhase, hphase]) (by simp [Request.withPhase])
  | @destroyValid q ptr rq hq hphase =>
      have hsame : ((s.edited rq ptr .cancelBuffers).committed rq ptr).requests q = some rq := by
        simpa using hq
      exact ((hh.onConnection _ _).onConnection _ _).setRequest hsame rfl
        (by simp [Request.withPhase, hphase]) (by simp [Request.withPhase])
  | stop => exact hh.same rfl rfl (by simp) fun _ _ => rfl

/-- It holds in every reachable server. -/
theorem handlersWF_of_run {tr : List (Fired Server Step)} {s : Server}
    (h : machine.Run init tr s) : s.HandlersWF :=
  (inv (fun _ _ => True) (fun _ s => s.HandlersWF) handlersWF_init
    (fun _ _ _ hi hh _ _ hm => hm.handlersWF hi hh) h fun _ _ => trivial).2

/-! ## Handlers and their requests -/

/-- The id of the request that is about to be handled still belongs to
another one: a user holds it, or the task that deletes its handler is queued. -/
def HandlerTaken (s : Server) (l : Step) : Prop :=
  ∃ q rq rest q' rq', l = .acceptorTask true ∧
    s.acceptorStrand = .handleNewRequest q :: rest ∧
    s.requests q = some rq ∧ s.isStored rq = true ∧
    s.requests q' = some rq' ∧ rq'.getId = rq.getId ∧
      (rq'.phase = .held ∨ .handleRequestDeleteImpl rq.getId q' ∈ s.acceptorStrand)

/-- Handlers match their requests, and the step keeps to them. -/
structure HandlersMatch (s : Server) (l : Step) : Prop where
  free : (machine.act l s).exit ≠
    .abort "Server::handleNewRequest: iter == _activeRequestHandlers.end()"
  held : ∀ q rq, s.requests q = some rq → rq.phase = .held →
    s.activeRequestHandlers rq.getId = some q
  deleted : ∀ id q rest routed, l = .acceptorTask routed →
    s.acceptorStrand = .handleRequestDeleteImpl id q :: rest →
    s.activeRequestHandlers id = some q ∧ machine.act l s = ⟨.ret (), { s.withTasks rest with
      activeRequestHandlers := Function.update s.activeRequestHandlers id none }, []⟩

/-- Every queued task finds the handler of the request that posted it. -/
theorem handler_of_task {s : Server} (hh : s.HandlersWF) {id : Nat × Nat} {q : Nat}
    (htask : .handleRequestDeleteImpl id q ∈ s.acceptorStrand) :
    s.activeRequestHandlers id = some q :=
  (hh.deleting id q (List.count_pos_iff.mpr htask)).1

/-- A step keeps the handlers to their requests exactly when it does not take an
id that still belongs to another one. -/
theorem handlersMatch_iff_step {s : Server} (hi : s.Invariant) (hh : s.HandlersWF) {l : Step}
    (he : machine.enabled s l = true) : s.HandlersMatch l ↔ ¬ s.HandlerTaken l := by
  constructor
  · rintro hmatch ⟨q, rq, rest, q', rq', rfl, htasks, hq, hstored, hq', hid, howned⟩
    obtain ⟨ptr, hg⟩ :=
      (grants_iff_isStored hi hq (.inl (phase_of_task hi htasks hq))).mpr hstored
    have hsome : (s.activeRequestHandlers rq.getId).isSome := by
      have hhandler : s.activeRequestHandlers rq.getId = some q' := by
        obtain hheld | htask := howned
        · rw [← hid]
          exact hh.held q' rq' hq' hheld
        · exact handler_of_task hh htask
      rw [hhandler]
      rfl
    have hrun : machine.act (.acceptorTask true) s = _ := acceptorTask_taken htasks hq hg hsome
    exact hmatch.free (by rw [hrun])
  · intro hfree
    constructor
    case held => exact hh.held
    case deleted =>
      rintro id q rest routed rfl htasks
      have htask : .handleRequestDeleteImpl id q ∈ s.acceptorStrand := by simp [htasks]
      have hhandler := handler_of_task hh htask
      have hsome : (s.activeRequestHandlers id).isSome := by rw [hhandler]; rfl
      exact ⟨hhandler, acceptorTask_deleted htasks hsome routed⟩
    case free =>
      intro hexit
      have hends := ends hi.wf he
      generalize machine.act l s = o at hends hexit
      cases hends with
      | ret => cases hexit
      | lost => cases hexit
      | abort hdies =>
          simp only [Exit.abort.injEq] at hexit
          cases hdies with
          | strand _ hdies =>
              have hmem := hdies.mem
              rw [hexit] at hmem
              simp [closedAssertions] at hmem
          | @handlerExists q ptr rq rest htasks hq hg hsome =>
              obtain ⟨q', hhandler⟩ := Option.isSome_iff_exists.mp hsome
              obtain ⟨rq', hq', hid, _, hlive⟩ := hh.handler _ _ hhandler
              have hstored :=
                (grants_iff_isStored hi hq (.inl (phase_of_task hi htasks hq))).mp ⟨ptr, hg⟩
              -- the io_service runs tasks only while the server is started
              have hstarted : s.status = .started := by
                have hen : (s.running && !s.acceptorStrand.isEmpty) = true := he
                simp only [running, Bool.and_eq_true, decide_eq_true_eq] at hen
                exact hen.1.1
              refine hfree ⟨q, rq, rest, q', rq', rfl, htasks, hq, hstored, hq', hid, ?_⟩
              obtain hheld | hdeletes := hlive hstarted
              · exact .inl hheld
              · exact .inr (List.count_pos_iff.mp hdeletes)
          | _ => simp at hexit

/-- **When handlers match their requests.**  In every run, up to and
including a step that ends the process, no request finds a handler stored
under its id, every `Server::Request` that a user holds has its own handler,
and every deletion erases the handler of the request that posted it, exactly
if no request is handled while an earlier one with its id is still held or
waits for its handler to be deleted. -/
theorem handlersMatch_iff {tr : List (Fired Server Step)} {s : Server} {l : Step}
    (h : machine.Run init tr s) (he : machine.enabled s l = true) :
    (∀ f ∈ tr ++ [⟨s, l⟩], f.pre.HandlersMatch f.label) ↔
      ∀ f ∈ tr ++ [⟨s, l⟩], ¬ f.pre.HandlerTaken f.label :=
  h.forall_attempted_iff (P := HandlersMatch) (Q := fun s l => ¬ s.HandlerTaken l) he
    fun _ _ _ hrun he => handlersMatch_iff_step (invariant_of_run hrun) (handlersWF_of_run hrun) he

/-- A client aborts a request that a user holds, and sends another with its id. -/
def reusedId : List Step :=
  [.accept [] fun _ => 0,
    .strand 0 (.handleRead false (emptyRequest 1 ++ [1, 2, 0, 1, 0, 0, 0, 0] ++ emptyRequest 1)),
    .strand 0 .nextPacket, .strand 0 .nextPacket, .strand 0 .nextPacket, .acceptorTask true,
    .strand 0 .nextPacket, .strand 0 .nextPacket, .strand 0 .nextPacket, .strand 0 .nextPacket]

/-- The second request finds the handler of the first. -/
theorem handler_exists_of_reusedId : ∃ tr s, machine.Run init tr s ∧
    machine.enabled s (.acceptorTask true) = true ∧
    (machine.act (.acceptorTask true) s).exit =
      .abort "Server::handleNewRequest: iter == _activeRequestHandlers.end()" := by
  obtain ⟨tr, s, hrun, hs⟩ := Machine.exists_run_of_exec machine init reusedId
    (fun _ s => machine.enabled s (.acceptorTask true) &&
      decide ((machine.act (.acceptorTask true) s).exit =
        .abort "Server::handleNewRequest: iter == _activeRequestHandlers.end()")) (by decide)
  rw [Bool.and_eq_true, decide_eq_true_eq] at hs
  exact ⟨tr, s, hrun, hs.1, hs.2⟩

/-- And the reason is that the first request is still held. -/
theorem handlersMatch_iff_reusedId : ∃ tr s, machine.Run init tr s ∧
    ∃ f ∈ tr ++ [⟨s, .acceptorTask true⟩], f.pre.HandlerTaken f.label := by
  obtain ⟨tr, s, hrun, hs⟩ := Machine.exists_run_of_exec machine init reusedId
    (fun _ s => machine.enabled s (.acceptorTask true) &&
      decide ((machine.act (.acceptorTask true) s).exit =
        .abort "Server::handleNewRequest: iter == _activeRequestHandlers.end()")) (by decide)
  rw [Bool.and_eq_true, decide_eq_true_eq] at hs
  refine ⟨tr, s, hrun, ?_⟩
  by_contra hnone
  have hmatch := (handlersMatch_iff hrun hs.1).mpr fun f hf htaken => hnone ⟨f, hf, htaken⟩
  exact (hmatch ⟨s, .acceptorTask true⟩ (by simp)).free hs.2

end Santiago.Server
