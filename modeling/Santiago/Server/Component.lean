import Santiago.Lib.Component
import Santiago.Output
import Santiago.Server.Closing

/-!
# Santiago.Server.Component

A connection inside the process.  Its strand steps interleave with those of
the other connections, with the acceptor and with the users, and all that it
shares with the other connections is the heap.  `Strand.shared` is a
connection on its own whose heap somebody else may allocate from at any time,
and whose users write to what was handed out to them and to nothing else;
`component_run` shows that each connection of the process is one, with the
same events and with the steps that `stepsAt` lists.

What holds of every run of a single connection and does not mind the heap
therefore holds of every connection of the process; `output_in_blocks` is
such a fact.
-/

namespace Santiago

open Effect Bytes

/-! ## A connection that shares its heap -/

namespace Strand

inductive SharedStep where
  /-- A step of the connection. -/
  | own (l : Step)
  /-- The addresses below this one are taken. -/
  | allocate (address : Nat)

def SharedStep.own? : SharedStep → Option Step
  | .own l => some l
  | .allocate _ => none

/-- A user writes only to an object that is ready. -/
def writesReady (s : Strand) : Step → Bool
  | .edit r ptr _ => (s.connection.data.requestMap[r]?).all fun e => e.ptr != ptr || e.ready
  | _ => true

def shared : Machine Event Strand SharedStep where
  enabled s
    | .own l => machine.enabled s l && writesReady s l
    | .allocate _ => true
  act
    | .own l => machine.act l
    | .allocate address => Act.modify (·.allocateFrom address)

/-- A connection as the acceptor starts it. -/
def Starts (s : Strand) : Prop := ∃ fs u, s = init fs u

/-- The steps of its own that a connection took. -/
def ownLabels (tr : List (Fired Strand SharedStep)) : List Step :=
  tr.filterMap fun f => f.label.own?

/-- The induction rule for a connection that shares its heap: `J` sees the
steps it took and its events. -/
theorem shared_inv (J : List Step → List Event → Strand → Prop)
    (h0 : ∀ s, s.Starts → J [] [] s)
    (hs : ∀ (ls : List Step) (t : List Event) (s : Strand) (l : Step),
      s.connection.WF → J ls t s →
      shared.enabled s (.own l) = true →
      Moves s l (machine.act l s).state (machine.act l s).events →
        J (ls ++ [l]) (t ++ (machine.act l s).events) (machine.act l s).state)
    (ha : ∀ ls t s address, J ls t s → J ls t (s.allocateFrom address))
    {s₀ s : Strand} {tr : List (Fired Strand SharedStep)} (hstart : s₀.Starts)
    (h : shared.Run s₀ tr s) : s.connection.WF ∧ J (ownLabels tr) (shared.trace tr) s := by
  obtain ⟨fs, u, rfl⟩ := hstart
  induction h with
  | nil => exact ⟨wf_init fs u, h0 _ ⟨fs, u, rfl⟩⟩
  | @step tr s l _ he hv ih =>
      obtain ⟨hwf, hj⟩ := ih
      rw [ownLabels, List.filterMap_append, Machine.trace_append, Machine.trace_singleton]
      cases l with
      | own l =>
          have hen := ((Bool.and_eq_true _ _).mp he).1
          have hm := moves hwf hen hv
          exact ⟨hm.wf hwf, hs _ _ s l hwf hj he hm⟩
      | allocate address =>
          have hact : shared.act (.allocate address) s =
              ⟨.ret (), s.allocateFrom address, []⟩ := rfl
          rw [Machine.observed, hact, List.append_nil]
          have hnone : ownLabels [(⟨s, .allocate address⟩ : Fired Strand SharedStep)] = [] :=
            rfl
          rw [ownLabels] at hnone
          rw [hnone, List.append_nil]
          exact ⟨hwf, ha _ _ s address hj⟩

/-- A step behind the allocations of others. -/
theorem shared_run {s t : Strand} {l : Step} {x : Exit Unit} {es : List Event} (address : Nat)
    (he : shared.enabled (s.allocateFrom address) (.own l) = true)
    (hrun : machine.act l (s.allocateFrom address) = ⟨x, t, es⟩) (hx : ∀ w, x ≠ .abort w) :
    ∃ tr, shared.Run s tr t ∧ shared.trace tr = es ∧
      tr.filterMap (fun f => f.label.own?) = [l] := by
  have hallocate : shared.act (.allocate address) s = ⟨.ret (), s.allocateFrom address, []⟩ :=
    rfl
  have hown : shared.act (.own l) (s.allocateFrom address) = ⟨x, t, es⟩ := hrun
  have hfirst : shared.Run s [⟨s, .allocate address⟩] (s.allocateFrom address) :=
    Machine.Run.single (N := shared) (l := .allocate address) rfl rfl
  have hsurvives : shared.survives (s.allocateFrom address) (.own l) = true := by
    rw [Machine.survives_iff, hown]
    exact hx
  have hlast := Machine.Run.single (N := shared) (l := .own l) he hsurvives
  rw [hown] at hlast
  refine ⟨_, hfirst.append hlast, ?_, rfl⟩
  rw [Machine.trace_append, Machine.trace_singleton, Machine.trace_singleton, Machine.observed,
    Machine.observed, hallocate, hown, List.nil_append]

end Strand
namespace Server

/-! ## What a step of the process is to one connection -/

/-- The request `q` and the object its accessors hand out, when they do. -/
def granted (s : Server) (q : Nat) : Option (Request × Nat) :=
  (s.requests q).bind fun rq =>
    if s.isValid rq then rq.dataWeakPtr.map fun ptr => (rq, ptr) else none

/-- A user that has access to its object is granted it. -/
theorem granted_of_grants {s : Server} {q ptr : Nat} {rq : Request} (hq : s.requests q = some rq)
    (hg : s.Grants rq ptr) : s.granted q = some (rq, ptr) := by
  have hvalid : s.isValid rq = true := isValid_iff.mpr ⟨ptr, hg⟩
  simp [granted, hq, hvalid, hg.dataWeakPtr_eq]

/-- A user without access is granted nothing. -/
theorem granted_of_not {s : Server} {q : Nat} {rq : Request} (hq : s.requests q = some rq)
    (hn : ∀ ptr, ¬ s.Grants rq ptr) : s.granted q = none := by
  have hvalid : ¬ s.isValid rq = true := fun h => by
    obtain ⟨ptr, hg⟩ := isValid_iff.mp h
    exact hn ptr hg
  simp [granted, hq, hvalid]

/-- Whoever is granted an object has access to it. -/
theorem grants_of_granted {s : Server} {q ptr : Nat} {rq : Request}
    (h : s.granted q = some (rq, ptr)) : s.requests q = some rq ∧ s.Grants rq ptr := by
  obtain ⟨rq', hq, hvalid⟩ := Option.bind_eq_some_iff.mp h
  split at hvalid
  · next hv =>
      obtain ⟨ptr', hdata, heq⟩ := Option.map_eq_some_iff.mp hvalid
      rw [Prod.mk.injEq] at heq
      obtain ⟨rfl, rfl⟩ := heq
      obtain ⟨ptr, hg⟩ := isValid_iff.mp hv
      rw [hg.dataWeakPtr_eq, Option.some.injEq] at hdata
      subst hdata
      exact ⟨hq, hg⟩
  · cases hvalid

/-- The steps that a step of the process makes connections take, in order. -/
def strandSteps (s : Server) : Step → List (Nat × Strand.Step)
  | .strand c l => [(c, l)]
  | .commit q => (s.granted q).elim [] fun x =>
      [(x.1.connectionWeakPtr, .commitReply x.1.requestId x.2)]
  | .cancel q => (s.granted q).elim [] fun x =>
      [(x.1.home, .edit x.1.requestId x.2 .cancelBuffers),
        (x.1.connectionWeakPtr, .commitReply x.1.requestId x.2)]
  | .edit q change => (s.granted q).elim [] fun x =>
      [(x.1.home, .edit x.1.requestId x.2 change)]
  | .destroyValid q => (s.granted q).elim [] fun x =>
      [(x.1.home, .edit x.1.requestId x.2 .cancelBuffers),
        (x.1.connectionWeakPtr, .commitReply x.1.requestId x.2)]
  | .accept _ _ => []
  | .acceptorTask _ => []
  | .release _ => []
  | .destroy _ => []
  | .stop => []

/-- Those of them that a connection takes, if it is there. -/
def ownSteps (c : Nat) (there : Bool) (ls : List (Nat × Strand.Step)) : List Strand.Step :=
  if there then ls.filterMap fun x => if x.1 = c then some x.2 else none else []

/-- The steps of connection `c` in a step of the process. -/
def stepsAt (c : Nat) (f : Fired Server Step) : List Strand.Step :=
  ownSteps c (f.pre.connections c).isSome (f.pre.strandSteps f.label)

@[simp] theorem ownSteps_nil (c : Nat) (there : Bool) : ownSteps c there [] = [] := by
  cases there <;> rfl

theorem ownSteps_cons (c : Nat) (there : Bool) (x : Nat × Strand.Step)
    (ls : List (Nat × Strand.Step)) :
    ownSteps c there (x :: ls) = ownSteps c there [x] ++ ownSteps c there ls := by
  cases there with
  | false => rfl
  | true => simp [ownSteps, List.filterMap_cons]; split <;> rfl

/-- The strand of the connection object `c`, once it is made. -/
def strandAt (c : Nat) (s : Server) : Option Strand :=
  (s.connections c).map AcceptedConnection.strand

/-- The part of a run that is connection `c`'s. -/
abbrev Behaves (c : Nat) (s : Server) (before : List Event) (done : List Strand.Step) : Prop :=
  Strand.shared.Behaves Strand.Starts Strand.SharedStep.own? (strandAt c s) before done

section

variable {s s' : Server} {c : Nat} {before : List Event} {done : List Strand.Step}

/-- A step that leaves the connection alone. -/
theorem Behaves.same (h : Behaves c s before done)
    (hconnections : s'.connections c = s.connections c) :
    Behaves c s' (before ++ []) (done ++ []) := by
  rw [List.append_nil, List.append_nil, Behaves, strandAt, hconnections]
  exact h

/-- A step of connection `c'` that the process passes on. -/
theorem Behaves.step (h : Behaves c s before done) {c' : Nat} {l : Strand.Step}
    {k : AcceptedConnection} {x : Exit Unit} {t : Strand} {es : List Event}
    (hk : s.connections c' = some k)
    (he : Strand.shared.enabled (k.strand.allocateFrom s.nextAddress) (.own l) = true)
    (hrun : Strand.machine.act l (k.strand.allocateFrom s.nextAddress) = ⟨x, t, es⟩)
    (hx : ∀ w, x ≠ .abort w)
    (hs' : s'.connections = Function.update s.connections c' (some ⟨k.connectionId, t⟩)) :
    Behaves c s' (before ++ eventsOf c (es.map fun e => (c', e)))
      (done ++ ownSteps c (s.connections c).isSome [(c', l)]) := by
  rw [eventsOf_map]
  by_cases heq : c' = c
  · subst heq
    obtain ⟨tr, hshared, htrace, hown⟩ := Strand.shared_run s.nextAddress he hrun hx
    have hpart : strandAt c' s = some k.strand := by rw [strandAt, hk]; rfl
    have hpart' : strandAt c' s' = some t := by
      rw [strandAt, hs', Function.update_self]
      rfl
    rw [Behaves, hpart] at h
    have hbehaves := h.run hshared
    rw [htrace, hown] at hbehaves
    rw [if_pos rfl, Behaves, hpart', hk]
    simpa [ownSteps] using hbehaves
  · rw [if_neg heq]
    have hnone : ownSteps c (s.connections c).isSome [(c', l)] = [] := by simp [ownSteps, heq]
    rw [hnone]
    exact h.same (by rw [hs', Function.update_of_ne (Ne.symm heq)])

/-- A change of a connection object from outside its strand. -/
theorem Behaves.onConnection (h : Behaves c s before done) {c' : Nat} {l : Strand.Step}
    {f : Connection → Connection} (he : ∀ k, s.connections c' = some k →
      Strand.shared.enabled (k.strand.allocateFrom s.nextAddress) (.own l) = true)
    (hrun : ∀ k : Strand, Strand.machine.act l k =
      ⟨.ret (), { k with connection := f k.connection }, []⟩) :
    Behaves c (s.onConnection c' f) before
      (done ++ ownSteps c (s.connections c).isSome [(c', l)]) := by
  cases hk : s.connections c' with
  | none =>
      have hsame : s.onConnection c' f = s := by simp only [Server.onConnection, hk]
      have hnone : ownSteps c (s.connections c).isSome [(c', l)] = [] := by
        by_cases heq : c' = c
        · subst heq
          rw [hk]
          rfl
        · simp [ownSteps, heq]
      rw [hsame, hnone, List.append_nil]
      exact h
  | some k =>
      have hconnections : (s.onConnection c' f).connections = Function.update s.connections c'
          (some ⟨k.connectionId, { k.strand.allocateFrom s.nextAddress with
            connection := f (k.strand.allocateFrom s.nextAddress).connection }⟩) := by
        simp only [Server.onConnection, hk, setStrand]
      have hstep := h.step hk (he k hk) (hrun _) (by simp) hconnections
      rwa [List.map_nil, eventsOf_nil, List.append_nil] at hstep

theorem isSome_onConnection (c' : Nat) (f : Connection → Connection) :
    ((s.onConnection c' f).connections c).isSome = (s.connections c).isSome := by
  cases hk : s.connections c' with
  | none => simp only [Server.onConnection, hk]
  | some k =>
      simp only [Server.onConnection, hk, setStrand]
      by_cases heq : c = c'
      · subst heq
        rw [Function.update_self, hk]
        rfl
      · rw [Function.update_of_ne heq]

/-- The object of a request that may be written through is stored ready. -/
theorem writesReady_of_grants (hi : s.Invariant) {q ptr : Nat} {rq : Request}
    (hq : s.requests q = some rq) (hphase : rq.phase ≠ .destroyed) (hg : s.Grants rq ptr)
    (change : UserEdit) {k : AcceptedConnection} (hk : s.connections rq.home = some k) :
    Strand.shared.enabled (k.strand.allocateFrom s.nextAddress)
      (.own (.edit rq.requestId ptr change)) = true := by
  have howes : s.custody.request q =
      some ⟨ptr, rq.requestId, rq.home, rq.connectionWeakPtr⟩ := by
    show (s.requests q).bind owes = _
    rw [hq, Option.bind_some, owes_of_data hphase hg.dataWeakPtr_eq]
  have hready : ∀ e, k.strand.connection.data.requestMap[rq.requestId]? = some e →
      e.ptr = ptr →
      e.ready = true := by
    rintro e he rfl
    have hentry : s.custody.entry rq.home rq.requestId = some (e.ptr, e.ready) := by
      rw [entry_custody hk, stored, he]
      rfl
    exact hi.sound.ready_of_holds _ (.request q) _ _ _ ⟨_, howes, rfl⟩ hentry
  show Option.all _ (k.strand.connection.data.requestMap[rq.requestId]?) = true
  rw [Option.all_eq_true]
  intro e he
  rw [Bool.or_eq_true, bne_iff_ne, ← imp_iff_not_or]
  exact hready e he

/-- A change by a user is the connection's own step `edit`. -/
theorem Behaves.edited (h : Behaves c s before done) (hi : s.Invariant) {q ptr : Nat}
    {rq : Request} (hq : s.requests q = some rq) (hphase : rq.phase ≠ .destroyed)
    (hg : s.Grants rq ptr) (change : UserEdit) : Behaves c (s.edited rq ptr change) before
      (done ++ ownSteps c (s.connections c).isSome [(rq.home, .edit rq.requestId ptr change)]) :=
  h.onConnection (fun _ hk => writesReady_of_grants hi hq hphase hg change hk) fun _ => rfl

/-- A commit by a user is the connection's own step `commitReply`. -/
theorem Behaves.committed (h : Behaves c s before done) (rq : Request) (ptr : Nat) :
    Behaves c (s.committed rq ptr) before (done ++ ownSteps c (s.connections c).isSome
      [(rq.connectionWeakPtr, .commitReply rq.requestId ptr)]) :=
  h.onConnection (fun _ _ => rfl) fun _ => rfl

/-- The end of a `cancel()`, called by a user or by the destructor. -/
theorem Behaves.cancelled (h : Behaves c s before done) (hi : s.Invariant) {q ptr : Nat}
    {rq : Request} (hq : s.requests q = some rq) (hphase : rq.phase ≠ .destroyed)
    (hg : s.Grants rq ptr) : Behaves c ((s.edited rq ptr .cancelBuffers).committed rq ptr) before
      (done ++ ownSteps c (s.connections c).isSome
        [(rq.home, .edit rq.requestId ptr .cancelBuffers),
          (rq.connectionWeakPtr, .commitReply rq.requestId ptr)]) := by
  have hboth := (h.edited hi hq hphase hg .cancelBuffers).committed rq ptr
  rw [isSome_onConnection, List.append_assoc, ← ownSteps_cons] at hboth
  exact hboth

end

/-! ## The step of a strand -/

/-- The callbacks into the acceptor leave the connection objects alone. -/
theorem runCallbacks_connections (c id : Nat) (es : List Event) (s : Server) :
    ∃ x s', runCallbacks c id es s = ⟨x, s', []⟩ ∧ s'.connections = s.connections ∧
      (x = .ret () ∨ ∃ w, x = .abort w) := by
  induction es generalizing s with
  | nil => exact ⟨_, s, rfl, rfl, .inl rfl⟩
  | cons e es ih =>
      have hone : ∃ x s', runCallback c id e s = ⟨x, s', []⟩ ∧
          s'.connections = s.connections ∧
          (x = .ret () ∨ ∃ w, x = .abort w) := by
        cases e with
        | requestReady r ptr d =>
            rw [runCallback, acceptorHandleNewRequest_run]
            split
            · exact ⟨_, s, rfl, rfl, .inr ⟨_, rfl⟩⟩
            · exact ⟨_, _, rfl, rfl, .inl rfl⟩
        | closeCallback =>
            rw [runCallback, handleConnectionClose_run]
            split
            · exact ⟨_, _, rfl, rfl, .inl rfl⟩
            · exact ⟨_, s, rfl, rfl, .inr ⟨_, rfl⟩⟩
        | _ => exact ⟨_, s, rfl, rfl, .inl rfl⟩
      obtain ⟨x, s', hrun, hconnections, rfl | ⟨w, rfl⟩⟩ := hone
      · obtain ⟨x', s'', hrest, hconnections', hx'⟩ := ih s'
        refine ⟨x', s'', ?_, hconnections'.trans hconnections, hx'⟩
        rw [runCallbacks, Act.bind_of_ret hrun, hrest]
        rfl
      · exact ⟨_, s', by rw [runCallbacks, Act.bind_of_abort hrun], hconnections,
          .inr ⟨w, rfl⟩⟩

/-- A strand step that does not end the process is the connection's own step. -/
theorem act_strand {s : Server} {c : Nat} {k : AcceptedConnection} {l : Strand.Step}
    (hk : s.connections c = some k) (hv : machine.survives s (.strand c l) = true) :
    ∃ x t es, Strand.machine.act l (k.strand.allocateFrom s.nextAddress) = ⟨x, t, es⟩ ∧
      (∀ w, x ≠ .abort w) ∧
      (machine.act (.strand c l) s).state.connections =
        Function.update s.connections c (some ⟨k.connectionId, t⟩) ∧
      (machine.act (.strand c l) s).events = es.map fun e => (c, e) := by
  rcases hrun : Strand.machine.act l (k.strand.allocateFrom s.nextAddress) with ⟨x, t, es⟩
  obtain ⟨x', s', hcallbacks, hconnections, hx'⟩ :=
    runCallbacks_connections c k.connectionId es (s.setStrand c k.connectionId t)
  have hact : machine.act (.strand c l) s = _ := strandStep_run hk hrun
  rw [Machine.survives_iff] at hv
  obtain rfl | ⟨w, rfl⟩ := hx'
  · rw [Act.bind_of_ret hcallbacks] at hact
    simp only [Act.exit_run, Outcome.after_mk, List.append_nil] at hact
    rw [hact] at hv ⊢
    exact ⟨x, t, es, rfl, hv, hconnections, rfl⟩
  · rw [Act.bind_of_abort hcallbacks] at hact
    exact absurd (by rw [hact]; rfl) (hv w)

/-- A step of the process, seen from one connection. -/
theorem Behaves.act {s : Server} {l : Step} {c : Nat} {before : List Event}
    {done : List Strand.Step} (h : Behaves c s before done) (hi : s.Invariant)
    (he : machine.enabled s l = true) (hv : machine.survives s l = true) :
    Behaves c (machine.act l s).state (before ++ eventsOf c (machine.act l s).events)
      (done ++ stepsAt c ⟨s, l⟩) := by
  have hmove := moves hi.wf he hv
  by_cases hl : ∃ c' l', l = .strand c' l'
  · obtain ⟨c', l', rfl⟩ := hl
    have hthere := he
    simp only [machine, enabled, strandEnabled, Bool.and_eq_true, Option.any_eq_true] at hthere
    obtain ⟨⟨k, hk, hen⟩, hown⟩ := hthere
    obtain ⟨x, t, es, hrun, hx, hconnections, hevents⟩ := act_strand hk hv
    have hen' : Strand.shared.enabled (k.strand.allocateFrom s.nextAddress) (.own l') = true := by
      refine (Bool.and_eq_true _ _).mpr ⟨?_, ?_⟩
      · rw [← hen]
        cases l' <;> rfl
      · cases l' with
        | edit => simp at hown
        | _ => rfl
    rw [hevents]
    exact h.step hk hen' hrun hx hconnections
  have hne : ∀ c' l', l ≠ .strand c' l' := fun c' l' heq => hl ⟨c', l', heq⟩
  have hsteps : stepsAt c ⟨s, l⟩ = ownSteps c (s.connections c).isSome (s.strandSteps l) := rfl
  rw [hsteps]
  generalize (machine.act l s).state = s' at hmove ⊢
  generalize (machine.act l s).events = es at hmove ⊢
  cases hmove with
  | strand => exact absurd rfl (hne _ _)
  | ready => exact absurd rfl (hne _ _)
  | closing => exact absurd rfl (hne _ _)
  | @accept fs u hfree =>
      by_cases heq : c = s.nextConnection
      · -- this is the connection that is made
        subst heq
        have hnone : s.connections s.nextConnection = none := by
          cases hk : s.connections s.nextConnection with
          | none => rfl
          | some k => exact absurd (hi.wf.known _ _ hk) (Nat.lt_irrefl _)
        have hmade : (s.accepted fs u).connections s.nextConnection =
            some ⟨s.nextConnectionId, Strand.init fs u⟩ := Function.update_self ..
        rw [Behaves, strandAt, hnone] at h
        rw [Behaves, strandAt, hmade, hnone, eventsOf_nil, List.append_nil, strandSteps,
          ownSteps_nil, List.append_nil]
        exact Machine.Behaves.started h ⟨fs, u, rfl⟩
      · rw [strandSteps, ownSteps_nil]
        have hsame : (s.accepted fs u).connections c = s.connections c :=
          Function.update_of_ne heq ..
        exact h.same hsame
  | denied hl hq hn =>
      have hnone : s.strandSteps l = [] := by
        obtain rfl | rfl | ⟨change, rfl⟩ := hl <;> simp [strandSteps, granted_of_not hq hn]
      rw [hnone, ownSteps_nil]
      exact h.same rfl
  | commit hq hphase hg =>
      rw [strandSteps, granted_of_grants hq hg, eventsOf_nil, List.append_nil]
      exact h.committed _ _
  | cancel hq hphase hg =>
      rw [strandSteps, granted_of_grants hq hg, eventsOf_nil, List.append_nil]
      exact h.cancelled hi hq (by simp [hphase]) hg
  | @edit q ptr rq change hq hg =>
      rw [strandSteps, granted_of_grants hq hg, eventsOf_nil, List.append_nil]
      have hphase : rq.phase = .held := by
        obtain ⟨rq', hq', hphase⟩ := request_of_inPhase he
        rw [hq, Option.some.injEq] at hq'
        exact hq' ▸ hphase
      exact h.edited hi hq (by simp [hphase]) hg _
  | destroyValid hq hphase hg =>
      rw [strandSteps, granted_of_grants hq hg, eventsOf_nil, List.append_nil]
      exact h.cancelled hi hq (by simp [hphase]) hg
  | release hq hphase =>
      rw [strandSteps, ownSteps_nil]
      refine h.same ?_
      rw [setRequest]
      split <;> rfl
  | _ =>
      rw [strandSteps, ownSteps_nil]
      exact h.same rfl

theorem flatMap_observed (c : Nat) (tr : List (Fired Server Step)) :
    tr.flatMap (fun f => eventsOf c (machine.observed f)) = eventsOf c (machine.trace tr) := by
  induction tr with
  | nil => rfl
  | cons f tr ih =>
      rw [← List.singleton_append, Machine.trace_append, eventsOf_append, List.flatMap_append, ih,
        Machine.trace_singleton, List.flatMap_singleton]

/-- In every run of the server each connection behaves. -/
theorem behaves_of_run {tr : List (Fired Server Step)} {s : Server} (h : machine.Run init tr s)
    (c : Nat) : Behaves c s (eventsOf c (machine.trace tr)) (tr.flatMap (stepsAt c)) := by
  have hbehaves := h.component (N := Strand.shared) (strandAt c) Strand.Starts
    Strand.SharedStep.own? (fun f => eventsOf c (machine.observed f)) (stepsAt c) rfl
    fun tr s l before done hrun he hv hb => Behaves.act hb (invariant_of_run hrun) he hv
  rwa [flatMap_observed] at hbehaves

/-- **Each connection of the process is a connection on its own** that shares
its heap: over any run, the events that are a connection's are those of one run
of its own machine, which ends in its state and takes the steps that the
connection's strand and its users made it take, in their order. -/
theorem component_run {tr : List (Fired Server Step)} {s : Server} (h : machine.Run init tr s)
    {c : Nat} {k : AcceptedConnection} (hk : s.connections c = some k) :
    ∃ fs u tr', Strand.shared.Run (Strand.init fs u) tr' k.strand ∧
      Strand.shared.trace tr' = eventsOf c (machine.trace tr) ∧
      tr'.filterMap (fun f => f.label.own?) = tr.flatMap (stepsAt c) := by
  have hbehaves := behaves_of_run h c
  rw [Behaves, strandAt, hk] at hbehaves
  obtain ⟨t₀, tr', ⟨fs, u, rfl⟩, hrun, htrace, hown⟩ := hbehaves
  exact ⟨fs, u, tr', hrun, htrace, hown⟩

/-- Two connections begin a request each: the second one's object is at the
second address of the heap. -/
theorem component_run_second : ∃ tr s, machine.Run init tr s ∧
    .began 1 1 ∈ eventsOf 1 (machine.trace tr) ∧ ∃ k fs u tr', s.connections 1 = some k ∧
      Strand.shared.Run (Strand.init fs u) tr' k.strand ∧
      Strand.shared.trace tr' = eventsOf 1 (machine.trace tr) := by
  obtain ⟨tr, s, hrun, hs⟩ := Machine.exists_run_of_exec machine init
    [.accept [] fun _ => 0, .accept [] fun _ => 0,
      .strand 1 (.handleRead false (emptyRequest 1)),
      .strand 0 (.handleRead false (emptyRequest 1)),
      .strand 0 .nextPacket, .strand 1 .nextPacket]
    (fun tr s => (s.connections 1).isSome && Event.began 1 1 ∈ eventsOf 1 (machine.trace tr))
    (by decide)
  rw [Bool.and_eq_true, Option.isSome_iff_exists, decide_eq_true_eq] at hs
  obtain ⟨⟨k, hk⟩, hbegan⟩ := hs
  obtain ⟨fs, u, tr', hshared, htrace, _⟩ := component_run hrun hk
  exact ⟨tr, s, hrun, hbegan, k, fs, u, tr', hk, hshared, htrace⟩

/-- What every single connection keeps, and the allocations of others with it,
every connection of the process keeps. -/
theorem connection_inv (J : List Strand.Step → List Event → Strand → Prop)
    (h0 : ∀ s, s.Starts → J [] [] s)
    (hs : ∀ (ls : List Strand.Step) (t : List Event) (s : Strand) (l : Strand.Step),
      s.connection.WF → J ls t s → Strand.shared.enabled s (.own l) = true →
      Strand.Moves s l (Strand.machine.act l s).state (Strand.machine.act l s).events →
        J (ls ++ [l]) (t ++ (Strand.machine.act l s).events) (Strand.machine.act l s).state)
    (ha : ∀ ls t s address, J ls t s → J ls t (s.allocateFrom address))
    {tr : List (Fired Server Step)} {s : Server} (h : machine.Run init tr s)
    {c : Nat} {k : AcceptedConnection} (hk : s.connections c = some k) :
    J (tr.flatMap (stepsAt c)) (eventsOf c (machine.trace tr)) k.strand := by
  have hbehaves := behaves_of_run h c
  rw [Behaves, strandAt, hk] at hbehaves
  obtain ⟨_, tr', hstart, hrun, htrace, hown⟩ := hbehaves
  have hj := (Strand.shared_inv J h0 hs ha hstart hrun).2
  rwa [htrace, Strand.ownLabels, hown] at hj

/-- **The output of every connection of the process comes in blocks**, however
its steps interleave with those of the others. -/
theorem connection_writes_blocks {tr : List (Fired Server Step)} {s : Server}
    (h : machine.Run init tr s) {c : Nat} {k : AcceptedConnection} (hk : s.connections c = some k) :
    ∃ blocks broken,
      WritesBlocks (eventsOf c (machine.trace tr)) k.strand.connection.state blocks broken :=
  connection_inv (fun _ t s => ∃ blocks broken, WritesBlocks t s.connection.state blocks broken)
    (fun _ _ => ⟨[], false, writesBlocks_nil _⟩)
    (fun _ _ _ _ hwf hj _ hm => by
      obtain ⟨_, _, hj⟩ := hj
      exact hj.step (hm.answers hwf rfl) hm.life.state_mono.2)
    (fun _ _ _ _ hj => hj) h hk

end Server

end Santiago
