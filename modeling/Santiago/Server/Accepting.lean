import Santiago.Lib.Wrapping
import Santiago.Server.WellFormed

/-!
# Santiago.Server.Accepting

The ids of the connections.  `handleAccept` takes the next value of a 32-bit
counter and asserts that it is free; nothing makes it so.  A connection that
is still open when the counter has gone around loses its place in the table,
or with assertions the process is gone.
-/

namespace Santiago.Server

open Effect Bytes Wrapping

/-! ## Accepts and closed connections in any order -/

inductive AcceptorStep where
  | handleAccept (writeFaults : List (Option Nat)) (uninitialized : Nat → BitVec 32)
  | closeConnection (connectionId : Nat)

/-- The acceptor by itself. -/
def acceptor : Machine (Nat × Event) Server AcceptorStep where
  enabled _ _ := true
  act
    | .handleAccept fs u => Server.handleAccept fs u
    | .closeConnection connectionId => Server.closeConnection connectionId

/-- An accept takes an id, a closed connection gives its id back. -/
def AcceptorStep.use : AcceptorStep → Use
  | .handleAccept _ _ => .take
  | .closeConnection connectionId => .free connectionId

def uses (tr : List (Fired Server AcceptorStep)) : List Use := tr.map fun f => f.label.use

/-- The table holds the connections that were accepted and not closed since,
each under the value the counter had. -/
structure CountsIds (us : List Use) (s : Server) : Prop where
  nextConnectionId_eq : s.nextConnectionId = takes us % 2 ^ 32
  nextConnection_eq : s.nextConnection = takes us
  active_iff : ∀ id c, s.activeConnections id = some c ↔ Has (2 ^ 32) us id c

/-- No id is used, and no connection in the table. -/
theorem countsIds_init : CountsIds [] init := by
  constructor
  · rfl
  · rfl
  · intro id c
    constructor
    · intro h
      cases h
    · intro h
      exact absurd h not_has_nil

/-- The connection accepted takes the value of the counter, if that is free. -/
theorem CountsIds.accepted {us : List Use} {s : Server} (h : CountsIds us s)
    (hfree : s.activeConnections s.nextConnectionId = none) (fs : List (Option Nat))
    (u : Nat → BitVec 32) : CountsIds (us ++ [.take]) (s.accepted fs u) := by
  obtain ⟨hid, hnext, hactive⟩ := h
  constructor
  · show (s.nextConnectionId + 1) % 2 ^ 32 = _
    rw [hid, takes_append, takes_cons_take, takes_nil]
    omega
  · show s.nextConnection + 1 = _
    rw [hnext, takes_append, takes_cons_take, takes_nil]
  · intro id c
    show Function.update s.activeConnections s.nextConnectionId (some s.nextConnection) id = _ ↔ _
    rw [has_take, ← hactive]
    by_cases heq : id = s.nextConnectionId
    · subst heq
      rw [Function.update_self, hfree, hnext, hid]
      constructor
      · intro hc
        obtain rfl := Option.some.inj hc
        exact .inr ⟨rfl, rfl⟩
      · rintro (hc | ⟨rfl, _⟩)
        · cases hc
        · rfl
    · rw [Function.update_of_ne heq]
      constructor
      · exact .inl
      · rintro (hc | ⟨rfl, hname⟩)
        · exact hc
        · exact absurd (hname.trans hid.symm) heq

/-- A connection that is closed frees its id. -/
theorem CountsIds.closed {us : List Use} {s s' : Server} {freed : Nat} (h : CountsIds us s)
    (hid : s'.nextConnectionId = s.nextConnectionId) (hnext : s'.nextConnection = s.nextConnection)
    (hactive : s'.activeConnections = Function.update s.activeConnections freed none) :
    CountsIds (us ++ [.free freed]) s' := by
  constructor
  · rw [takes_append, takes_cons_free, takes_nil, hid]
    exact h.nextConnectionId_eq
  · rw [takes_append, takes_cons_free, takes_nil, hnext]
    exact h.nextConnection_eq
  · intro id c
    rw [hactive, has_free, ← h.active_iff]
    by_cases heq : id = freed
    · subst heq
      simp
    · simp [heq]

/-- What a step that does not end the process does. -/
theorem CountsIds.step {us : List Use} {s : Server} {l : AcceptorStep} (h : CountsIds us s)
    (hv : acceptor.survives s l = true) : CountsIds (us ++ [l.use]) (acceptor.act l s).state := by
  cases l with
  | handleAccept fs u =>
      cases hfree : s.activeConnections s.nextConnectionId with
      | none =>
          have hact : acceptor.act (.handleAccept fs u) s = ⟨.ret (), s.accepted fs u, []⟩ :=
            handleAccept_of_none hfree fs u
          rw [hact]
          exact h.accepted hfree fs u
      | some c =>
          have hact : acceptor.act (.handleAccept fs u) s = _ := handleAccept_of_some hfree fs u
          exact absurd (by rw [hact]) (Machine.survives_iff.mp hv _)
  | closeConnection id =>
      have hact : acceptor.act (.closeConnection id) s = _ := closeConnection_run id s
      by_cases hsome : (s.activeConnections id).isSome = true
      · rw [hact, if_pos hsome]
        exact h.closed rfl rfl rfl
      · rw [if_neg hsome] at hact
        exact absurd (by rw [hact]) (Machine.survives_iff.mp hv _)

/-- In every run the counter and the table are what the uses of the ids say. -/
theorem countsIds_of_run {tr : List (Fired Server AcceptorStep)} {s : Server}
    (h : acceptor.Run init tr s) : CountsIds (uses tr) s := by
  induction h with
  | nil => exact countsIds_init
  | @step tr s l _ _ hv ih =>
      have huses : uses (tr ++ [⟨s, l⟩]) = uses tr ++ [l.use] := by simp [uses]
      rw [huses]
      exact ih.step hv

/-! ## Unique ids -/

/-- If the step accepts a connection, no connection in the table has the id it gives. -/
def GivesFreshId (f : Fired Server AcceptorStep) : Prop :=
  f.label.use = .take → f.pre.activeConnections f.pre.nextConnectionId = none

/-- Every accepted connection is in the table until its id is closed. -/
def StaysAccepted (tr : List (Fired Server AcceptorStep)) (s : Server) : Prop :=
  ∀ xs f ys, tr = xs ++ f :: ys → f.label.use = .take →
    (∀ g ∈ ys, g.label.use ≠ .free f.pre.nextConnectionId) →
    s.activeConnections f.pre.nextConnectionId = some f.pre.nextConnection

/-- In every run an accepted connection is in the table until its id is closed. -/
theorem staysAccepted_of_run {tr : List (Fired Server AcceptorStep)} {s : Server}
    (h : acceptor.Run init tr s) : StaysAccepted tr s := by
  intro xs f ys htr htake hopen
  subst htr
  obtain ⟨hbefore, _, _, _⟩ := h.split
  obtain ⟨hid, hnext, _⟩ := countsIds_of_run hbefore
  rw [(countsIds_of_run h).active_iff]
  refine ⟨uses xs, uses ys, by simp [uses, htake], hnext.symm, ?_, ?_⟩
  · rw [hid, hnext]
  · intro hmem
    obtain ⟨g, hg, hfree⟩ := List.mem_map.mp hmem
    exact hopen g hg hfree

/-- The id is fresh when no earlier connection has it. -/
theorem givesFreshId_iff {tr : List (Fired Server AcceptorStep)} {f : Fired Server AcceptorStep}
    (h : acceptor.Run init tr f.pre) (htake : f.label.use = .take) :
    GivesFreshId f ↔ ∀ c, ¬ Has (2 ^ 32) (uses tr) (takes (uses tr) % 2 ^ 32) c := by
  obtain ⟨hid, _, hactive⟩ := countsIds_of_run h
  rw [GivesFreshId, hid, Option.eq_none_iff_forall_ne_some]
  constructor
  · intro hfresh c hhas
    exact hfresh htake c ((hactive _ c).mpr hhas)
  · intro hnone _ c hc
    exact hnone c ((hactive _ c).mp hc)

/-- **Unique ids**: every accept of a run gets an id that no connection in the
table has, and every accepted connection stays in the table until it is
closed, exactly when every connection is closed before 2^32 more are accepted. -/
theorem ids_unique_iff {tr : List (Fired Server AcceptorStep)} {s : Server}
    (h : acceptor.Run init tr s) (l : AcceptorStep) :
    ((∀ f ∈ tr ++ [⟨s, l⟩], GivesFreshId f) ∧ StaysAccepted tr s) ↔
      FreedInTime (2 ^ 32) (uses (tr ++ [⟨s, l⟩])) := by
  rw [freedInTime_iff (by decide)]
  constructor
  · intro hunique us ws hsplit c
    obtain ⟨xs, zs, hxs, rfl, hzs⟩ := List.map_eq_append_iff.mp hsplit
    obtain ⟨f, ys, rfl, htake, _⟩ := List.map_eq_cons_iff.mp hzs
    have hfresh := hunique.1 f (by rw [hxs]; simp)
    exact (givesFreshId_iff (h.before_attempted hxs) htake).mp hfresh c
  · intro hfreed
    refine ⟨fun f hf => ?_, staysAccepted_of_run h⟩
    obtain ⟨xs, ys, hxs⟩ := List.append_of_mem hf
    intro htake
    refine (givesFreshId_iff (h.before_attempted hxs) htake).mpr ?_ htake
    refine hfreed (uses xs) (uses ys) ?_
    rw [hxs]
    simp [uses, htake]

/-- Two connections, the first one closed before the second one comes. -/
theorem ids_unique_iff_two : ∃ tr s, acceptor.Run init tr s ∧
    tr.map (fun f => f.label.use) = [.take, .free 0, .take] ∧
    (((∀ f ∈ tr ++ [⟨s, .closeConnection 1⟩], GivesFreshId f) ∧ StaysAccepted tr s) ↔
      FreedInTime (2 ^ 32) (uses (tr ++ [⟨s, .closeConnection 1⟩]))) := by
  obtain ⟨tr, s, hrun, huses⟩ := Machine.exists_run_of_exec acceptor init
    [.handleAccept [] fun _ => 0, .closeConnection 0, .handleAccept [] fun _ => 0]
    (fun tr _ => tr.map (fun f => f.label.use) = [.take, .free 0, .take]) (by decide)
  exact ⟨tr, s, hrun, of_decide_eq_true huses, ids_unique_iff hrun _⟩

/-! ## Once around the counter -/

/-- An accept survives where the counter's value is free. -/
theorem survives_handleAccept {s : Server} (h : s.activeConnections s.nextConnectionId = none)
    (fs : List (Option Nat)) (u : Nat → BitVec 32) :
    acceptor.survives s (.handleAccept fs u) = true := by
  have hact : acceptor.act (.handleAccept fs u) s = ⟨.ret (), s.accepted fs u, []⟩ :=
    handleAccept_of_none h fs u
  rw [Machine.survives_iff, hact]
  simp

/-- A close survives where its id is in the table. -/
theorem survives_closeConnection {s : Server} {id : Nat} (h : (s.activeConnections id).isSome) :
    acceptor.survives s (.closeConnection id) = true := by
  have hact : acceptor.act (.closeConnection id) s = _ := closeConnection_run id s
  rw [Machine.survives_iff, hact, if_pos h]
  simp

/-- The table when only the first connection is open. -/
def onlyFirst : Nat → Option Nat := Function.update (fun _ => none) 0 (some 0)

/-- The first connection stays open while `n` others come and go. -/
theorem exists_run_onlyFirst (n : Nat) (hn : n + 1 < 2 ^ 32) : ∃ tr s, acceptor.Run init tr s ∧
    s.nextConnectionId = n + 1 ∧ s.activeConnections = onlyFirst := by
  induction n with
  | zero =>
      have hv := survives_handleAccept (s := init) rfl [] fun _ => 0
      exact ⟨_, _, .step .nil rfl hv, rfl, rfl⟩
  | succ n ih =>
      obtain ⟨tr, s, hrun, hid, hactive⟩ := ih (by omega)
      have hne : n + 1 ≠ 0 := Nat.succ_ne_zero n
      have hfree : s.activeConnections s.nextConnectionId = none := by
        rw [hactive, hid, onlyFirst, Function.update_of_ne hne]
      have haccept := handleAccept_of_none hfree [] fun _ => 0
      have hrun' := hrun.step (l := .handleAccept [] fun _ => 0) rfl
        (survives_handleAccept hfree [] fun _ => 0)
      have hstate : (acceptor.act (.handleAccept [] fun _ => 0) s).state =
          s.accepted [] fun _ => 0 := congrArg Outcome.state haccept
      rw [hstate] at hrun'
      have hsome : ((s.accepted [] fun _ => 0).activeConnections (n + 1)).isSome := by
        show (Function.update s.activeConnections s.nextConnectionId (some s.nextConnection)
          (n + 1)).isSome
        rw [hid, Function.update_self]
        rfl
      have hclose := closeConnection_run (n + 1) (s.accepted [] fun _ => 0)
      rw [if_pos hsome] at hclose
      refine ⟨_, _, hrun'.step (l := .closeConnection (n + 1)) rfl
        (survives_closeConnection hsome), ?_, ?_⟩
      · show (Server.closeConnection (n + 1) _).state.nextConnectionId = _
        rw [hclose]
        show (s.nextConnectionId + 1) % 2 ^ 32 = _
        rw [hid]
        omega
      · show (Server.closeConnection (n + 1) _).state.activeConnections = _
        rw [hclose]
        show Function.update (Function.update s.activeConnections s.nextConnectionId _) _ _ = _
        rw [hid, hactive, Function.update_idem]
        have hnone : onlyFirst (n + 1) = none := by
          rw [onlyFirst, Function.update_of_ne hne]
        rw [← hnone, Function.update_eq_self]

/-- Connection 0 stays open while the counter goes around; the accept that
comes then gets the id 0. -/
theorem id_given_twice : ¬ ∀ tr s l, acceptor.Run init tr s →
    (∀ f ∈ tr ++ [⟨s, l⟩], GivesFreshId f) ∧ StaysAccepted tr s := by
  intro h
  obtain ⟨tr, s, hrun, hid, hactive⟩ := exists_run_onlyFirst (2 ^ 32 - 2) (by decide)
  have hfree : s.activeConnections s.nextConnectionId = none := by
    rw [hactive, hid]
    rfl
  have hrun' := hrun.step (l := .handleAccept [] fun _ => 0) rfl
    (survives_handleAccept hfree [] fun _ => 0)
  have hstate : (acceptor.act (.handleAccept [] fun _ => 0) s).state =
      s.accepted [] fun _ => 0 := congrArg Outcome.state (handleAccept_of_none hfree [] fun _ => 0)
  rw [hstate] at hrun'
  obtain ⟨hfresh, _⟩ := h _ _ (.handleAccept [] fun _ => 0) hrun'
  have hnone : Function.update s.activeConnections s.nextConnectionId (some s.nextConnection)
      ((s.nextConnectionId + 1) % 2 ^ 32) = none :=
    hfresh ⟨s.accepted [] fun _ => 0, .handleAccept [] fun _ => 0⟩ (by simp) rfl
  rw [hid, hactive] at hnone
  cases hnone

/-! ## The process -/

/-- What a step of the process does to the ids. -/
def usesOf (s : Server) : Step → List Use
  | .accept _ _ => [.take]
  | .acceptorTask _ =>
      match s.acceptorStrand with
      | .closeConnection connectionId :: _ => [.free connectionId]
      | _ => []
  | _ => []

theorem CountsIds.same {us : List Use} {s s' : Server} (h : CountsIds us s)
    (hid : s'.nextConnectionId = s.nextConnectionId) (hnext : s'.nextConnection = s.nextConnection)
    (hactive : s'.activeConnections = s.activeConnections) : CountsIds (us ++ []) s' := by
  rw [List.append_nil]
  constructor
  · rw [hid, h.nextConnectionId_eq]
  · rw [hnext, h.nextConnection_eq]
  · rw [hactive]
    exact h.active_iff

@[simp] theorem nextConnectionId_onConnection (s : Server) (c : Nat)
    (f : Connection → Connection) :
    (s.onConnection c f).nextConnectionId = s.nextConnectionId := by
  unfold onConnection
  split <;> rfl

@[simp] theorem nextConnection_onConnection (s : Server) (c : Nat) (f : Connection → Connection) :
    (s.onConnection c f).nextConnection = s.nextConnection := by
  unfold onConnection
  split <;> rfl

/-- Only an accept and a `closeConnection` task touch the table. -/
theorem Moves.countsIds {us : List Use} {s s' : Server} {l : Step} {es : List (Nat × Event)}
    (h : Moves s l s' es) (hc : CountsIds us s) : CountsIds (us ++ usesOf s l) s' := by
  cases h with
  | accept hfree => exact hc.accepted hfree _ _
  | closeConnection htasks _ =>
      simp only [usesOf, htasks]
      exact hc.closed rfl rfl rfl
  | strand => exact hc.same rfl rfl rfl
  | ready => exact hc.same rfl rfl rfl
  | closing => exact hc.same rfl rfl rfl
  | noRequest htasks =>
      simp only [usesOf, htasks]
      exact hc.same rfl rfl rfl
  | lost htasks =>
      simp only [usesOf, htasks]
      exact hc.same rfl rfl rfl
  | notRouted htasks =>
      simp only [usesOf, htasks]
      exact hc.same rfl rfl rfl
  | stored htasks =>
      simp only [usesOf, htasks]
      exact hc.same rfl rfl rfl
  | handlerDeleted htasks =>
      simp only [usesOf, htasks]
      exact hc.same rfl rfl rfl
  | denied hl =>
      obtain rfl | rfl | ⟨change, rfl⟩ := hl
      · exact hc.same rfl rfl rfl
      · exact hc.same rfl rfl rfl
      · exact hc.same rfl rfl rfl
  | commit => exact hc.same (by simp [setRequest]) (by simp [setRequest]) (by simp [setRequest])
  | cancel => exact hc.same (by simp [setRequest]) (by simp [setRequest]) (by simp [setRequest])
  | edit => exact hc.same (by simp) (by simp) (by simp)
  | release =>
      split
      · exact hc.same rfl rfl rfl
      · exact hc.same rfl rfl rfl
  | destroyed => exact hc.same rfl rfl rfl
  | cancelling => exact hc.same rfl rfl rfl
  | destroyValid =>
      exact hc.same (by simp [setRequest]) (by simp [setRequest]) (by simp [setRequest])
  | stop => exact hc.same rfl rfl rfl

/-- In a run of the whole process the table is what accepts and closed
connections have made of it, whatever else happened between them. -/
theorem countsIds_of_process {tr : List (Fired Server Step)} {s : Server}
    (h : machine.Run init tr s) :
    s.WF ∧ CountsIds (tr.flatMap fun f => usesOf f.pre f.label) s := by
  induction h with
  | nil => exact ⟨wf_init, countsIds_init⟩
  | @step tr s l _ he hv ih =>
      obtain ⟨hwf, hc⟩ := ih
      have hm := moves hwf he hv
      refine ⟨hm.wf hwf, ?_⟩
      rw [List.flatMap_append, List.flatMap_singleton]
      exact hm.countsIds hc

end Santiago.Server
