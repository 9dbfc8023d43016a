import Santiago.Closed
import Santiago.Server.Ownership

/-!
# Santiago.Server.Closing

What happens to a connection that closes.  Its close callback posts the task
that erases it, and the erased connection is destroyed with whatever is still
queued on its strand: a reply that a user has committed in the meantime runs
on a connection that is gone, unless the erasing task runs behind it.
-/

namespace Santiago.Server

open Effect Bytes PacketSocket Connection

/-! ## Replies and their connections -/

/-- Every queued reply is queued on an active connection. -/
def RepliesActive (s : Server) : Prop := ∀ c, s.custody.replies c ≠ [] → s.isActive c = true

/-- The step erases a connection with a reply still queued on its strand. -/
def DropsReplies (s : Server) (l : Step) : Prop :=
  ∃ routed id rest c, l = .acceptorTask routed ∧
    s.acceptorStrand = .closeConnection id :: rest ∧ s.activeConnections id = some c ∧
    s.custody.replies c ≠ []

/-- The step runs a reply on the strand of `c`. -/
def RunsReply (s : Server) (l : Step) (c : Nat) : Prop :=
  l = .strand c .runTask ∧ ∃ k r ptr rest, s.connections c = some k ∧
    k.strand.connection.socket.strand = .commitReplyImpl r ptr :: rest

/-- A connection stays active as long as nobody erases its id. -/
theorem isActive_of_same {s s' : Server} {c : Nat} (h : s.isActive c = true)
    (hactive : s'.activeConnections = s.activeConnections)
    (hconnections : ∀ k, s.connections c = some k →
      ∃ k', s'.connections c = some k' ∧ k'.connectionId = k.connectionId) :
    s'.isActive c = true := by
  obtain ⟨k, hk, ha⟩ := isActive_iff.mp h
  obtain ⟨k', hk', hid⟩ := hconnections k hk
  exact isActive_iff.mpr ⟨k', hk', by rw [hid, hactive, ha]⟩

/-- A change of one connection keeps all of them, with their ids. -/
theorem connections_onConnection {s : Server} (c : Nat) (f : Connection → Connection) {c' : Nat}
    {k : AcceptedConnection} (hk : s.connections c' = some k) :
    ∃ k', (s.onConnection c f).connections c' = some k' ∧ k'.connectionId = k.connectionId := by
  unfold onConnection
  cases hc : s.connections c with
  | none => exact ⟨k, hk, rfl⟩
  | some k₁ =>
      by_cases heq : c' = c
      · subst heq
        rw [hk, Option.some.injEq] at hc
        subst hc
        exact ⟨_, Function.update_self .., rfl⟩
      · exact ⟨k, (Function.update_of_ne heq ..).trans hk, rfl⟩

/-- A change of a connection leaves the active ones active. -/
theorem isActive_onConnection {s : Server} {c : Nat} (h : s.isActive c = true) (c' : Nat)
    (f : Connection → Connection) : (s.onConnection c' f).isActive c = true :=
  isActive_of_same h (by simp) fun _ hk => connections_onConnection c' f hk

/-- Only the task that closes a connection makes it inactive. -/
theorem Moves.isActive {s s' : Server} {l : Step} {es : List (Nat × Event)} (h : Moves s l s' es)
    (hwf : s.WF) {c : Nat} (hc : s.isActive c = true) :
    s'.isActive c = true ∨ ∃ routed id rest, l = .acceptorTask routed ∧
      s.acceptorStrand = .closeConnection id :: rest ∧ s.activeConnections id = some c := by
  have hstay : ∀ {t : Server}, t.activeConnections = s.activeConnections →
      t.connections = s.connections → t.isActive c = true := fun ha hk =>
    isActive_of_same hc ha fun k hk' => ⟨k, hk ▸ hk', rfl⟩
  cases h with
  | @accept fs u hfree =>
      left
      have hview := custody_accepted hwf fs u hfree
      show c ∈ (s.accepted fs u).custody.active
      rw [hview]
      exact Set.mem_insert_of_mem _ hc
  | strand hk => exact .inl ((isActive_setStrand hk _ c).trans hc)
  | ready hk => exact .inl ((isActive_setStrand hk _ c).trans hc)
  | closing hk => exact .inl ((isActive_setStrand hk _ c).trans hc)
  | @closeConnection id rest routed htasks ha =>
      obtain ⟨c', ha'⟩ := Option.isSome_iff_exists.mp ha
      by_cases hcc : c = c'
      · subst hcc
        exact .inr ⟨routed, id, rest, rfl, htasks, ha'⟩
      · left
        show c ∈ (Server.custody { s.withTasks rest with
          activeConnections := Function.update s.activeConnections id none }).active
        rw [custody_closeConnection hwf rest ha']
        exact ⟨hc, hcc⟩
  | noRequest => exact .inl (hstay rfl rfl)
  | lost => exact .inl (hstay rfl rfl)
  | notRouted => exact .inl (hstay rfl rfl)
  | stored => exact .inl (hstay rfl rfl)
  | handlerDeleted => exact .inl (hstay rfl rfl)
  | denied => exact .inl hc
  | commit => exact .inl (isActive_onConnection hc _ _)
  | cancel => exact .inl (isActive_onConnection (isActive_onConnection hc _ _) _ _)
  | edit => exact .inl (isActive_onConnection hc _ _)
  | release =>
      left
      split
      · exact hstay rfl rfl
      · exact hstay rfl rfl
  | destroyed => exact .inl (hstay rfl rfl)
  | cancelling => exact .inl (hstay rfl rfl)
  | destroyValid => exact .inl (isActive_onConnection (isActive_onConnection hc _ _) _ _)
  | stop => exact .inl (hstay rfl rfl)

/-- A step that drops no reply leaves every reply on an active connection. -/
theorem RepliesActive.step {s s' : Server} {l : Step} {es : List (Nat × Event)}
    (h : s.RepliesActive) (hm : Moves s l s' es) (hi : s.Invariant)
    (he : machine.enabled s l = true) (hkeeps : ¬ s.DropsReplies l) : s'.RepliesActive := by
  intro c hc
  have hactive : s.isActive c = true := by
    obtain hold | hnew := (hm.custody hi.wf hi.requestsWF he).replies_cases hc
    · exact h c hold
    · exact hnew
  obtain hstays | ⟨routed, id, rest, rfl, htasks, ha⟩ := hm.isActive hi.wf hactive
  · exact hstays
  · -- the connection is erased, so nothing was queued on it, and nothing is
    exfalso
    cases hm with
    | closeConnection => exact hkeeps ⟨routed, id, rest, c, rfl, htasks, ha, hc⟩
    | noRequest h | lost h | notRouted h | stored h | handlerDeleted h =>
        exact absurd (htasks.symm.trans h) (by simp)
    | denied hl => simp at hl

/-- A step that drops a reply leaves it on a connection that is gone. -/
theorem DropsReplies.not_repliesActive {s s' : Server} {l : Step} {es : List (Nat × Event)}
    (h : s.DropsReplies l) (hm : Moves s l s' es) (hwf : s.WF) : ¬ s'.RepliesActive := by
  obtain ⟨routed, id, rest, c, rfl, htasks, ha, hreplies⟩ := h
  cases hm with
  | closeConnection htasks' =>
      rw [htasks] at htasks'
      cases htasks'
      intro hall
      have hview := custody_closeConnection hwf rest ha
      have hactive := hall c hreplies
      have hmem : c ∈ (Server.custody { s.withTasks rest with
        activeConnections := Function.update s.activeConnections id none }).active := hactive
      rw [hview] at hmem
      exact hmem.2 rfl
  | noRequest h | lost h | notRouted h | stored h | handlerDeleted h =>
      exact absurd (htasks.symm.trans h) (by simp)
  | denied hl => simp at hl

theorem repliesActive_init : init.RepliesActive := fun _ hc => absurd rfl hc

/-- In a run that never erases a connection with a reply queued, every queued
reply is queued on an active connection. -/
theorem repliesActive_of_run {tr : List (Fired Server Step)} {s : Server}
    (h : machine.Run init tr s) (hkeeps : ∀ f ∈ tr, ¬ f.pre.DropsReplies f.label) :
    s.RepliesActive :=
  (inv (fun s l => ¬ s.DropsReplies l) (fun _ s => s.RepliesActive) repliesActive_init
    (fun _ _ _ hi hr he hkeeps hm => hr.step hm hi he hkeeps) h hkeeps).2

/-- **When posted commits outlive their connection.**  As long as no task
erases a connection with a reply queued on its strand, every reply that runs,
runs on a connection that is still in `_activeConnections`.  And the condition
is the exact one: the steps of a run all meet it if and only if behind each of
them every queued reply is on an active connection. -/
theorem reply_runs_on_active {tr : List (Fired Server Step)} {s : Server} {l : Step}
    (h : machine.Run init tr s) :
    ((∀ f ∈ tr, ¬ f.pre.DropsReplies f.label) → ∀ f ∈ tr ++ [⟨s, l⟩], ∀ c,
      f.pre.RunsReply f.label c → f.pre.isActive c = true) ∧
    ((∀ f ∈ tr, ¬ f.pre.DropsReplies f.label) ↔
      ∀ f ∈ tr, (machine.post f).RepliesActive) := by
  refine ⟨fun hkeeps f hf c hruns => ?_, fun hkeeps f hf => ?_, fun hactive f hf hdrops => ?_⟩
  · have hbefore : f.pre.RepliesActive := by
      rw [List.mem_append, List.mem_singleton] at hf
      obtain hf | rfl := hf
      · obtain ⟨tr₁, tr₂, rfl, hrun, _⟩ := h.fired hf
        exact repliesActive_of_run hrun fun g hg => hkeeps g (List.mem_append_left _ hg)
      · exact repliesActive_of_run h hkeeps
    obtain ⟨_, k, r, ptr, rest, hk, htasks⟩ := hruns
    refine hbefore c ?_
    have hmem : (r, ptr) ∈ k.strand.replies := mem_replies.mpr (by simp [htasks])
    rw [replies_custody hk]
    exact List.ne_nil_of_mem hmem
  · obtain ⟨tr₁, tr₂, rfl, hrun, hen, hv⟩ := h.fired hf
    have hbefore := repliesActive_of_run hrun fun g hg => hkeeps g (List.mem_append_left _ hg)
    have hi := invariant_of_run hrun
    exact hbefore.step (moves hi.wf hen hv) hi hen (hkeeps f hf)
  · obtain ⟨tr₁, tr₂, rfl, hrun, hen, hv⟩ := h.fired hf
    have hwf := (invariant_of_run hrun).wf
    exact hdrops.not_repliesActive (moves hwf hen hv) hwf (hactive f hf)

/-- The next task of the strand of `c` is the given reply. -/
def nextReply (s : Server) (c r ptr : Nat) : Bool :=
  (s.connections c).any fun k =>
    k.strand.connection.socket.strand.head? = some (.commitReplyImpl r ptr)

/-- A strand headed by a reply runs that reply next. -/
theorem runsReply_of_nextReply {s : Server} {c r ptr : Nat} (h : s.nextReply c r ptr = true) :
    s.RunsReply (.strand c .runTask) c := by
  obtain ⟨k, hk, hhead⟩ := (Option.any_eq_true _ _).mp h
  obtain ⟨rest, htasks⟩ := List.head?_eq_some_iff.mp (of_decide_eq_true hhead)
  exact ⟨rfl, k, r, ptr, rest, hk, htasks⟩

/-- A commit on a connection that stays runs on an active connection. -/
theorem reply_runs_on_active_commit : ∃ tr s, machine.Run init tr s ∧
    s.RunsReply (.strand 0 .runTask) 0 ∧ s.isActive 0 = true := by
  obtain ⟨tr, s, hrun, hs⟩ := Machine.exists_run_of_exec machine init
    [.accept [] fun _ => 0, .strand 0 (.handleRead false (emptyRequest 1)), .strand 0 .nextPacket,
      .strand 0 .nextPacket, .strand 0 .nextPacket, .acceptorTask true, .commit 0]
    (fun tr s => s.nextReply 0 1 0 &&
      tr.all fun f => decide (f.pre.acceptorStrand = [] ∨
        f.pre.acceptorStrand = [.handleNewRequest 0])) (by decide)
  simp only [Bool.and_eq_true, List.all_eq_true, decide_eq_true_eq] at hs
  have hruns := runsReply_of_nextReply hs.1
  refine ⟨tr, s, hrun, hruns, ?_⟩
  refine (@reply_runs_on_active tr s (.strand 0 .runTask) hrun).1 ?_ ⟨s, .strand 0 .runTask⟩
    (by simp) 0 hruns
  rintro f hf ⟨_, id, rest, _, _, htasks, _⟩
  obtain hnil | hone := hs.2 f hf
  · exact absurd (htasks.symm.trans hnil) (by simp)
  · exact absurd (htasks.symm.trans hone) (by simp)

/-- A request is committed, its abort closes the connection, which was winding
down, and the connection is erased before the commit runs. -/
theorem reply_runs_on_erased : ∃ tr s, machine.Run init tr s ∧
    machine.enabled s (.strand 0 .runTask) = true ∧ s.RunsReply (.strand 0 .runTask) 0 ∧
    s.isActive 0 = false := by
  obtain ⟨tr, s, hrun, hs⟩ := Machine.exists_run_of_exec machine init
    [.accept [] fun _ => 0,
      .strand 0 (.handleRead false (emptyRequest 0 ++ [1, 2, 0, 1, 0, 0, 0, 0])),
      .strand 0 .nextPacket, .strand 0 .nextPacket, .strand 0 .nextPacket, .acceptorTask true,
      .commit 0, .strand 0 .nextPacket, .acceptorTask true]
    (fun _ s => machine.enabled s (.strand 0 .runTask) && !s.isActive 0 && s.nextReply 0 1 0)
    (by decide)
  simp only [Bool.and_eq_true, Bool.not_eq_true'] at hs
  exact ⟨tr, s, hrun, hs.1.1, runsReply_of_nextReply hs.2, hs.1.2⟩

/-! ## Closing is final -/

/-- What an observer sees of the connection `c`. -/
def eventsOf (c : Nat) (t : List (Nat × Event)) : List Event :=
  (t.filter fun x => x.1 = c).map Prod.snd

@[simp] theorem eventsOf_nil (c : Nat) : eventsOf c [] = [] := rfl

@[simp] theorem eventsOf_append (c : Nat) (t t' : List (Nat × Event)) :
    eventsOf c (t ++ t') = eventsOf c t ++ eventsOf c t' := by
  simp [eventsOf]

theorem eventsOf_map (c c' : Nat) (es : List Event) :
    eventsOf c (es.map fun e => (c', e)) = if c' = c then es else [] := by
  by_cases hc : c' = c
  · simp [eventsOf, List.filter_map, Function.comp_def, hc]
  · simp [eventsOf, List.filter_map, Function.comp_def, hc]

/-- The step answers an abort on a socket that fails, with more to dispatch behind it. -/
def AbortFails (s : Server) (l : Step) : Prop :=
  ∃ c k l', l = .strand c l' ∧ s.connections c = some k ∧ k.strand.AbortFails l'

/-- The events of a connection end with its close callback, if it is CLOSED. -/
def ClosesOnce (es : List Event) (state : Connection.State) : Prop :=
  if state = .closed then ∃ before, es = before ++ [.closeCallback] ∧ .closeCallback ∉ before
  else .closeCallback ∉ es

/-- What every connection keeps: it closes once, and is final when it is closed. -/
def FinalAll (t : List (Nat × Event)) (s : Server) : Prop :=
  ∀ c, match s.connections c with
    | none => eventsOf c t = []
    | some k => k.strand.Final ∧ ClosesOnce (eventsOf c t) k.strand.connection.state

/-- Events of the connection alone hold no close callback. -/
theorem closeCallback_notMem {es : List Event} (h : ∀ y ∈ es, y.isCallback = false) :
    .closeCallback ∉ es := fun hmem => by
  have hfalse := h _ hmem
  cases hfalse

/-- One step of one strand. -/
theorem closesOnce_of_moves {k t : Strand} {l : Strand.Step} {es before : List Event}
    (h : Strand.Moves k l t es) (hwf : k.connection.WF) (he : Strand.machine.enabled k l = true)
    (hf : ¬ k.AbortFails l) (hfinal : k.Final) (honce : ClosesOnce before k.connection.state) :
    t.Final ∧ ClosesOnce (before ++ es) t.connection.state := by
  by_cases hclosed : k.connection.state = .closed
  · obtain ⟨hfinal', hclosed', rfl⟩ := h.final_of_closed hfinal hclosed he
    rw [List.append_nil, hclosed']
    rw [hclosed] at honce
    exact ⟨hfinal', honce⟩
  · refine ⟨h.final_of_open hwf hclosed he hf, ?_⟩
    rw [ClosesOnce, if_neg hclosed] at honce
    have hopen : ∀ {st : Connection.State}, st ≠ .closed → .closeCallback ∉ es →
        ClosesOnce (before ++ es) st := by
      intro st hst hes
      rw [ClosesOnce, if_neg hst, List.mem_append, not_or]
      exact ⟨honce, hes⟩
    obtain ⟨hquiet, hst⟩ | ⟨_, _, _, _, _, _, _, _, hst, _, rfl⟩ |
        ⟨before', hquiet, rfl, _, hclosed', _⟩ := h.life.callbacks
    · exact hopen (fun hc => hclosed (hst hc)) (closeCallback_notMem hquiet)
    · exact hopen (fun hc => hclosed (hst ▸ hc)) (by simp)
    · rw [ClosesOnce, if_pos hclosed', ← List.append_assoc]
      refine ⟨_, rfl, ?_⟩
      rw [List.mem_append, not_or]
      exact ⟨honce, closeCallback_notMem hquiet⟩

/-- A step that leaves the connections alone keeps it. -/
theorem FinalAll.same {t : List (Nat × Event)} {s s' : Server} (h : FinalAll t s)
    (hconnections : s'.connections = s.connections) : FinalAll (t ++ []) s' := by
  intro c
  rw [hconnections, List.append_nil]
  exact h c

/-- A step of one strand keeps it, unless it is the failed abort answer. -/
theorem FinalAll.setStrand {trace : List (Nat × Event)} {s s' : Server} (h : FinalAll trace s)
    (hwf : s.WF) {c : Nat} {k : AcceptedConnection} {l : Strand.Step} {t : Strand}
    {es : List Event} (hk : s.connections c = some k)
    (hm : Strand.Moves (k.strand.allocateFrom s.nextAddress) l t es)
    (he : Strand.machine.enabled (k.strand.allocateFrom s.nextAddress) l = true)
    (hf : ¬ k.strand.AbortFails l)
    (hs' : s'.connections = (s.setStrand c k.connectionId t).connections) :
    FinalAll (trace ++ es.map fun e => (c, e)) s' := by
  intro c'
  have hpre := h c'
  rw [eventsOf_append, eventsOf_map, hs']
  by_cases hc : c = c'
  · subst hc
    rw [hk] at hpre
    have hself : (s.setStrand c k.connectionId t).connections c = some ⟨k.connectionId, t⟩ :=
      Function.update_self ..
    rw [hself, if_pos rfl]
    exact closesOnce_of_moves hm (allocateFrom_wf (hwf.connection_wf c k hk) _) he hf hpre.1 hpre.2
  · have hother : (s.setStrand c k.connectionId t).connections c' = s.connections c' :=
      Function.update_of_ne (Ne.symm hc) ..
    rw [hother, if_neg hc, List.append_nil]
    exact hpre

/-- The new connection is open and has not called back. -/
theorem FinalAll.accepted {t : List (Nat × Event)} {s : Server} (h : FinalAll t s) (hwf : s.WF)
    (fs : List (Option Nat)) (u : Nat → BitVec 32) : FinalAll (t ++ []) (s.accepted fs u) := by
  intro c
  have hpre := h c
  rw [List.append_nil]
  by_cases hc : c = s.nextConnection
  · subst hc
    have hnone : s.connections s.nextConnection = none := by
      cases hk : s.connections s.nextConnection with
      | none => rfl
      | some k => exact absurd (hwf.known _ k hk) (Nat.lt_irrefl _)
    have hself : (s.accepted fs u).connections s.nextConnection =
        some ⟨s.nextConnectionId, Strand.init fs u⟩ := Function.update_self ..
    rw [hnone] at hpre
    rw [hself, hpre]
    refine ⟨Strand.final_init fs u, ?_⟩
    have hopen : (Strand.init fs u).connection.state ≠ .closed := by
      simp [Strand.init, Connection.start, Connection.init, setSocket]
    simp [ClosesOnce, hopen]
  · have hother : (s.accepted fs u).connections c = s.connections c := Function.update_of_ne hc ..
    rw [hother]
    exact hpre

/-- A move of one connection that shows nothing. -/
theorem FinalAll.setStrand_silent {trace : List (Nat × Event)} {s : Server} (h : FinalAll trace s)
    (hwf : s.WF) {c : Nat} {k : AcceptedConnection} {l : Strand.Step} {t : Strand}
    (hk : s.connections c = some k)
    (hm : Strand.Moves (k.strand.allocateFrom s.nextAddress) l t [])
    (he : Strand.machine.enabled (k.strand.allocateFrom s.nextAddress) l = true)
    (hf : ¬ k.strand.AbortFails l) : FinalAll trace (s.setStrand c k.connectionId t) := by
  have hset := h.setStrand hwf hk hm he hf rfl
  rwa [List.map_nil, List.append_nil] at hset

/-- What a user does to the reply neither closes nor opens a connection. -/
theorem FinalAll.edited {t : List (Nat × Event)} {s : Server} (h : FinalAll t s) (hwf : s.WF)
    (rq : Request) (ptr : Nat) (change : UserEdit) : FinalAll t (s.edited rq ptr change) := by
  obtain ⟨_, heq⟩ | ⟨k, t', hk, hm, heq⟩ := s.edited_cases rq ptr change
  · rw [heq]
    exact h
  · rw [heq]
    exact h.setStrand_silent hwf hk hm rfl (by simp [Strand.AbortFails])

/-- A committed reply is posted, on a connection that is as closed as before. -/
theorem FinalAll.committed {t : List (Nat × Event)} {s : Server} (h : FinalAll t s) (hwf : s.WF)
    (rq : Request) (ptr : Nat) : FinalAll t (s.committed rq ptr) := by
  obtain ⟨_, heq⟩ | ⟨k, t', hk, hm, heq⟩ := s.committed_cases rq ptr
  · rw [heq]
    exact h
  · rw [heq]
    exact h.setStrand_silent hwf hk hm rfl (by simp [Strand.AbortFails])

/-- Every step of the server keeps it, unless it is the failed abort answer. -/
theorem FinalAll.step {t : List (Nat × Event)} {s s' : Server} {l : Step}
    {es : List (Nat × Event)} (h : FinalAll t s) (hm : Moves s l s' es) (hwf : s.WF)
    (he : machine.enabled s l = true) (hf : ¬ s.AbortFails l) : FinalAll (t ++ es) s' := by
  have hstrand : ∀ {c : Nat} {k : AcceptedConnection} {l' : Strand.Step} {t' : Strand}
      {es' : List Event} {s' : Server}, l = .strand c l' → s.connections c = some k →
      Strand.Moves (k.strand.allocateFrom s.nextAddress) l' t' es' →
      s'.connections = (s.setStrand c k.connectionId t').connections →
      FinalAll (t ++ es'.map fun e => (c, e)) s' := by
    intro c k l' t' es' s' hl hk hmove hs'
    subst hl
    obtain ⟨k', hk', hen⟩ := enabled_strand he
    rw [hk, Option.some.injEq] at hk'
    subst hk'
    exact h.setStrand hwf hk hmove hen (fun hfails => hf ⟨c, k, l', rfl, hk, hfails⟩) hs'
  cases hm with
  | accept => exact h.accepted hwf _ _
  | strand hk hm => exact hstrand rfl hk hm rfl
  | ready hk hm => exact hstrand rfl hk hm rfl
  | closing hk hm => exact hstrand rfl hk hm rfl
  | closeConnection => exact h.same rfl
  | noRequest => exact h.same rfl
  | lost => exact h.same rfl
  | notRouted => exact h.same rfl
  | stored => exact h.same rfl
  | handlerDeleted => exact h.same rfl
  | denied => exact h.same rfl
  | commit => exact (h.committed hwf _ _).same rfl
  | cancel => exact ((h.edited hwf _ _ _).committed (hwf.edited _ _ _) _ _).same rfl
  | edit => exact (h.edited hwf _ _ _).same rfl
  | release =>
      split
      · exact h.same rfl
      · exact h.same rfl
  | destroyed => exact h.same rfl
  | cancelling => exact h.same rfl
  | destroyValid => exact ((h.edited hwf _ _ _).committed (hwf.edited _ _ _) _ _).same rfl
  | stop => exact h.same rfl

/-- The assertions that a connection which closes once does not fail. -/
def closingAssertions : List String :=
  ["PacketSocket::writePacket: _state != CLOSED",
    "Connection::handleTransceiverEvent: _state != CLOSED",
    "Acceptor::handleConnectionClose: _activeConnections.find(connectionId) != end",
    "Acceptor::closeConnection: _activeConnections.find(connectionId) != end"]

/-- While it holds, no step fails an assertion on what is closed. -/
theorem Dies.notMem_of_finalAll {t : List (Nat × Event)} {s : Server} {l : Step} {w : String}
    {es : List (Nat × Event)} (h : Dies s l w es) (hf : FinalAll t s) (hwf : s.WF)
    (he : machine.enabled s l = true) : w ∉ closingAssertions := by
  cases h with
  | accept => simp [closingAssertions]
  | @strand c k _ _ _ hk hdies =>
      obtain ⟨k', hk', hen⟩ := enabled_strand he
      rw [hk, Option.some.injEq] at hk'
      subst hk'
      have hfinal := hf c
      rw [hk] at hfinal
      have hnot := hdies.notMem_of_final hfinal.1 hen
      have hmem := hdies.mem
      simp only [closedAssertions, List.mem_append, List.mem_cons, List.not_mem_nil, or_false]
        at hnot hmem
      obtain hmem | rfl | rfl := hmem
      · exact absurd hmem hnot
      · simp [closingAssertions]
      · simp [closingAssertions]
  | ready => simp [closingAssertions]
  | closeConnection htasks ha =>
      have hclosed := (hwf.isClosed_of_task htasks).1
      simp [isClosed, ha] at hclosed
  | handlerExists => simp [closingAssertions]
  | handlerMissing => simp [closingAssertions]
  | destroyValid => simp [closingAssertions]

/-- **When CLOSED is final.**  In every run in which no abort is answered on a
failing socket with more to dispatch behind it: a connection is CLOSED exactly
if its close callback has been called, which is then the last thing anyone
sees of it and is called once; its map stays empty; and no step fails the
assertions that it is not CLOSED, or that the acceptor finds it. -/
theorem closed_is_final {tr : List (Fired Server Step)} {s : Server}
    (h : machine.Run init tr s) (hf : ∀ f ∈ tr, ¬ f.pre.AbortFails f.label) :
    (∀ c k, s.connections c = some k →
      ClosesOnce (eventsOf c (machine.trace tr)) k.strand.connection.state ∧
      (k.strand.connection.state = .closed → k.strand.connection.data.requestMap = ∅)) ∧
    ∀ l w, machine.enabled s l = true → (machine.act l s).exit = .abort w →
      w ∉ closingAssertions := by
  obtain ⟨hi, hfinal⟩ := inv (fun s l => ¬ s.AbortFails l) FinalAll (fun _ => rfl)
    (fun _ _ _ hi hj he hf hm => hj.step hm hi.wf he hf) h hf
  refine ⟨fun c k hk => ?_, fun l w he hexit => ?_⟩
  · have hc := hfinal c
    rw [hk] at hc
    exact ⟨hc.2, fun hclosed => (hc.1 hclosed).1⟩
  · have hends := ends hi.wf he
    generalize machine.act l s = o at hends hexit
    cases hends with
    | ret => cases hexit
    | lost => cases hexit
    | abort hdies =>
        cases hexit
        exact hdies.notMem_of_finalAll hfinal hi.wf he

/-- The answer to a query cannot be written, and behind the query waits a
begin-request, which is left: the connection closes once. -/
theorem closed_is_final_writeError : ∃ tr s, machine.Run init tr s ∧
    .writeError [] ∈ eventsOf 0 (machine.trace tr) ∧
    ClosesOnce (eventsOf 0 (machine.trace tr)) .closed := by
  obtain ⟨tr, s, hrun, hs⟩ := Machine.exists_run_of_exec machine init
    [.accept [some 0] fun _ => 0, .strand 0 (.handleRead false
      ([1, 9, 0, 0, 0, 0, 0, 0] ++ [1, 1, 0, 1, 0, 8, 0, 0, 0, 1, 1, 0, 0, 0, 0, 0])),
      .strand 0 .nextPacket]
    (fun tr s => (s.connections 0).any (fun k => k.strand.connection.state = .closed) &&
      (.writeError [] ∈ eventsOf 0 (machine.trace tr) && tr.all fun f => match f.label with
        | .strand c .nextPacket => (f.pre.connections c).all fun k =>
            (FcgiHeader.cast k.strand.connection.socket.inputBuffer).type ≠ fcgiAbortRequest
        | _ => true)) (by decide)
  simp only [Bool.and_eq_true, Option.any_eq_true, List.all_eq_true, decide_eq_true_eq] at hs
  obtain ⟨⟨k, hk, hclosed⟩, herror, hlabels⟩ := hs
  have hfinal := (closed_is_final hrun ?_).1 0 k hk
  · rw [hclosed] at hfinal
    exact ⟨tr, s, hrun, herror, hfinal.1⟩
  · rintro f hf ⟨c, k', l', hl, hk', hl', _, _, header, content, hn, habort, _⟩
    have hlabel := hlabels f hf
    rw [hl, hl'] at hlabel
    simp only [hk', Option.all_some, hn.cast_eq, decide_eq_true_eq] at hlabel
    exact hlabel habort

/-- The answer to an abort cannot be written, and behind the abort waits a
begin-request: it is dispatched on the CLOSED connection, and stored. -/
theorem begins_on_closed : ∃ tr s, machine.Run init tr s ∧ ∃ k, s.connections 0 = some k ∧
    k.strand.connection.state = .closed ∧ k.strand.connection.data.size = 1 ∧
    ¬ ClosesOnce (eventsOf 0 (machine.trace tr)) .closed := by
  obtain ⟨tr, s, hrun, hs⟩ := Machine.exists_run_of_exec machine init
    [.accept [some 0] fun _ => 0, .strand 0 (.handleRead false
      ([1, 2, 0, 1, 0, 0, 0, 0] ++ [1, 1, 0, 1, 0, 8, 0, 0, 0, 1, 1, 0, 0, 0, 0, 0])),
      .strand 0 .nextPacket, .strand 0 .nextPacket]
    (fun tr s => (s.connections 0).any (fun k => k.strand.connection.state = .closed &&
      k.strand.connection.data.size = 1) &&
        (eventsOf 0 (machine.trace tr)).getLast? != some .closeCallback) (by decide)
  simp only [Bool.and_eq_true, Option.any_eq_true, decide_eq_true_eq, bne_iff_ne] at hs
  obtain ⟨⟨k, hk, hclosed, hsize⟩, hlast⟩ := hs
  refine ⟨tr, s, hrun, k, hk, hclosed, hsize, fun honce => ?_⟩
  rw [ClosesOnce, if_pos rfl] at honce
  obtain ⟨before, heq, _⟩ := honce
  rw [heq] at hlast
  simp at hlast

end Santiago.Server
