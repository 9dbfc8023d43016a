import Santiago.Input
import Santiago.Pairs.Grammar
import Santiago.Server.Component

/-!
# Santiago.Server.Received

The way of a client's input.  The packets of a request come in any number of
pieces and between those of other requests, ids are used again, packets are
rejected and requests aborted, and all of it is interleaved with the replies of
the users.  `Came` follows an entry from its beginning; `handed_out_as_received`
says of every run what a user finds in the request that he is handed.
-/

namespace Santiago

open Effect Bytes PacketSocket Connection Chunks Delimited

theorem Strand.Moves.takes {s s' : Strand} {l : Strand.Step} {es : List Event} {r : Nat}
    {e : Entry} (h : Moves s l s' es) (hready : writesReady s l = true)
    (he : s'.connection.data.requestMap[r]? = some e) : Takes s.connection.data r e es := by
  cases h with
  | readClosed => exact takes_quiet he (by simp)
  | readFailed => simp at he
  | readBytes => exact takes_quiet he (by simp)
  | pass h => exact h.takes he
  | flush => exact takes_quiet he (by simp)
  | commit _ h => exact h.takes he
  | commitReply => exact takes_quiet he (by simp)
  | @edit r' ptr change =>
      unfold ConnectionData.edit at he
      split at he
      · next hvalid =>
          rw [ConnectionData.getElem?_modifyEntry] at he
          split at he
          · next hr =>
              subst hr
              obtain ⟨e', hold, rfl⟩ := Option.map_eq_some_iff.mp he
              obtain ⟨e'', hown, hptr⟩ := ConnectionData.isValidRequest_iff.mp hvalid
              rw [hold, Option.some.injEq] at hown
              subst hown
              have hisReady : e'.ready = true := by
                simpa [writesReady, hold, hptr] using hready
              refine .took hold rfl (by simp) (fun hnot => ?_) (.inl ⟨rfl, rfl⟩)
              rw [hisReady] at hnot
              cases hnot
          · exact takes_quiet he (by simp)
      · exact takes_quiet he (by simp)

/-! ## What has come for an entry -/

/-- The entry began in the events `t`.  Until it is ready it holds what came
since then; it has been handed out once if both streams have ended, and not
at all before. -/
def Came (t : List Event) (r : Nat) (e : Entry) : Prop :=
  ∃ before after, t = before ++ .began r e.ptr :: after ∧ (∀ ptr, .began r ptr ∉ after) ∧
    (e.ready = false → InputIs (chunks r fcgiStdin after) (chunks r fcgiParams after) e ∧
      handedOut r after = []) ∧
    (e.ready = true → Closed (chunks r fcgiStdin after) ∧ Closed (chunks r fcgiParams after) ∧
      handedOut r after = [e.ptr])

/-- The map holds the pairs that the bytes begin with, as many as there are
whole ones, and of each name the first. -/
def Spells (bytes : Bytes) (params : ParamsMap) : Prop :=
  ∃ ps rest, Splits PairForm bytes ps rest ∧ ∀ key : Bytes, params[key]? = ps.lookup key

/-- The parameters are those of all the bytes, while a `uint` counts them. -/
theorem spells_paramsOf {bytes : Bytes} (h : bytes.length < 2 ^ 32) :
    Spells bytes (paramsOf bytes) := by
  obtain ⟨ps, rest, hsplits⟩ := exists_splits delimits_pairForm bytes
  refine ⟨ps, rest, hsplits, fun key => ?_⟩
  rw [paramsOf, Nat.mod_eq_of_lt h, parsePairs_splits ∅ hsplits, getElem?_insertPairs]
  simp

/-- The object `d` is handed out behind the events `t`, and it is the first
time since it began: it holds what came for it, and both streams have ended. -/
def Brought (t : List Event) (r ptr : Nat) (d : RequestData) : Prop :=
  ∃ before after, t = before ++ .began r ptr :: after ∧ (∀ ptr', .began r ptr' ∉ after) ∧
    handedOut r after = [] ∧
    Closed (chunks r fcgiStdin after) ∧ Closed (chunks r fcgiParams after) ∧
    d.in_ = payload (chunks r fcgiStdin after) ∧
    d.paramsMap = paramsOf (payload (chunks r fcgiParams after)) ∧
    ((payload (chunks r fcgiParams after)).length < 2 ^ 32 →
      Spells (payload (chunks r fcgiParams after)) d.paramsMap)

theorem Came.new {t before : List Event} {r : Nat} {e : Entry} (hready : e.ready = false)
    (hinput : InputIs [] [] e) : Came (t ++ (before ++ [.began r e.ptr])) r e := by
  refine ⟨t ++ before, [], (List.append_assoc ..).symm, by simp, fun _ => ⟨hinput, rfl⟩, ?_⟩
  intro h
  rw [hready] at h
  cases h

theorem InputIs.closed {stdin params : List Bytes} {e : Entry} (h : InputIs stdin params e)
    (hready : e.ready = true) : Closed stdin ∧ Closed params := by
  rw [Entry.ready, Bool.and_eq_true, decide_eq_true_eq, decide_eq_true_eq] at hready
  exact ⟨h.in_iff.mp hready.2, h.params_iff.mp hready.1⟩

theorem InputIs.ready_of_closed {stdin params : List Bytes} {e : Entry}
    (h : InputIs stdin params e) (hstdin : Closed stdin) (hparams : Closed params) :
    e.ready = true := by
  rw [Entry.ready, Bool.and_eq_true, decide_eq_true_eq, decide_eq_true_eq]
  exact ⟨h.params_iff.mpr hparams, h.in_iff.mpr hstdin⟩

theorem Came.step {t es : List Event} {d : ConnectionData} {r : Nat} {e : Entry}
    (h : ∀ e', d.requestMap[r]? = some e' → Came t r e') (htakes : Takes d r e es) :
    Came (t ++ es) r e := by
  cases htakes with
  | began hes hready hinput =>
      rw [hes]
      exact .new hready hinput
  | @took e' hold hptr hbegan hinput hready =>
      obtain ⟨before, after, rfl, hlast, hopen, hdone⟩ := h e' hold
      refine ⟨before, after ++ es, by simp [hptr], fun ptr hmem => ?_, fun hnot => ?_,
        fun his => ?_⟩
      · obtain hmem | hmem := List.mem_append.mp hmem
        · exact hlast ptr hmem
        · exact hbegan ptr hmem
      · obtain ⟨hsame, hnone⟩ | ⟨_, hyes, _⟩ := hready
        · rw [hnot] at hsame
          obtain ⟨hinput', hnone'⟩ := hopen hsame
          rw [chunks_append, chunks_append, handedOut_append, hnone, hnone']
          exact ⟨hinput hsame _ _ hinput', rfl⟩
        · rw [hnot] at hyes
          cases hyes
      · rw [chunks_append, chunks_append, handedOut_append]
        obtain ⟨hsame, hnone⟩ | ⟨hno, _, hone⟩ := hready
        · rw [his] at hsame
          obtain ⟨hstdin, hparams, hone⟩ := hdone hsame
          exact ⟨hstdin.append _, hparams.append _, by rw [hnone, hone, hptr, List.append_nil]⟩
        · obtain ⟨hinput', hnone⟩ := hopen hno
          obtain ⟨hstdin, hparams⟩ := (hinput hno _ _ hinput').closed his
          exact ⟨hstdin, hparams, by rw [hone, hnone, List.nil_append]⟩

/-- The packet that makes an entry ready brings its object. -/
theorem Came.brought {t : List Event} {r : Nat} {e : Entry} {ty : UInt8} {content : Bytes}
    {f : RequestState → RequestData → RequestState × RequestData} (h : Came t r e)
    (hf : Receives ty content e f)
    (hready : Entry.ready ⟨(f e.state e.data).1, e.ptr, (f e.state e.data).2⟩ = true) :
    Brought (t ++ [.newPacket r ty content]) r e.ptr (f e.state e.data).2 := by
  obtain ⟨before, after, rfl, hlast, hopen, _⟩ := h
  obtain ⟨hinput, hnone⟩ := hopen hf.ready_eq_false
  have hadded := hinput.receives hf
  obtain ⟨hstdin, hparams⟩ := hadded.closed hready
  have hchunks : ∀ t₀, chunks r t₀ [.newPacket r ty content] = addedIf ty t₀ content := by
    intro t₀
    rw [chunks_packet (by simp), addedIf]
    simp
  have hmap := hadded.paramsMap_closed hparams
  refine ⟨before, after ++ [.newPacket r ty content], by simp, ?_, ?_, ?_, ?_, ?_, ?_, ?_⟩
  · simpa using hlast
  · rw [handedOut_append, hnone]
    rfl
  · rw [chunks_append, hchunks]
    exact hstdin
  · rw [chunks_append, hchunks]
    exact hparams
  · rw [chunks_append, hchunks]
    exact hadded.in_eq
  · rw [chunks_append, hchunks]
    exact hmap
  · rw [chunks_append, hchunks, hmap]
    exact spells_paramsOf

/-- The two sides of a cut, and an element on one of them. -/
theorem split_of_append {α : Type} {t es xs ys : List α} {y : α} (h : t ++ es = xs ++ y :: ys) :
    (∃ zs, t = xs ++ y :: zs ∧ ys = zs ++ es) ∨ ∃ zs, xs = t ++ zs ∧
      es = zs ++ y :: ys := by
  obtain ⟨zs, rfl, hes⟩ | ⟨zs, rfl, hys⟩ := List.append_eq_append_iff.mp h
  · exact .inr ⟨zs, rfl, hes⟩
  · cases zs with
    | nil => exact .inr ⟨[], by simp, hys.symm⟩
    | cons z zs =>
        obtain ⟨rfl, rfl⟩ := List.cons.inj hys
        exact .inl ⟨zs, rfl, rfl⟩

/-- Everything that was handed out so far was brought, and everything that is
there came. -/
structure Received (t : List Event) (d : ConnectionData) : Prop where
  came : ∀ r e, d.requestMap[r]? = some e → Came t r e
  brought : ∀ xs r ptr data ys, t = xs ++ .requestReady r ptr data :: ys → Brought xs r ptr data

theorem received_init (fs : List (Option Nat)) (u : Nat → BitVec 32) :
    Received [] (Strand.init fs u).connection.data where
  came r e he := by
    have hempty : (Strand.init fs u).connection.data.requestMap[r]? = none := rfl
    rw [hempty] at he
    cases he
  brought xs r ptr data ys h := by simp at h

/-- A step that hands out an object does so behind its last packet. -/
theorem Received.brings {t : List Event} {s s' : Strand} {l : Strand.Step} {xs ys : List Event}
    {r ptr : Nat} {data : RequestData} (h : Received t s.connection.data)
    (hm : Strand.Moves s l s' (xs ++ .requestReady r ptr data :: ys)) :
    Brought (t ++ xs) r ptr data := by
  have hmem : Event.requestReady r ptr data ∈ xs ++ .requestReady r ptr data :: ys := by simp
  obtain ⟨hnot, _⟩ | ⟨r', ty, content, e, f, hf, he, hready, _, _, hes⟩ |
    ⟨before, hnot, hes, _⟩ :=
    hm.life.callbacks
  · cases hnot _ hmem
  · cases xs with
    | nil => simp at hes
    | cons x xs =>
        rw [List.cons_append, List.cons.injEq, List.append_eq_singleton_iff] at hes
        simp only [List.cons.injEq, Event.requestReady.injEq, reduceCtorEq, and_false,
          or_false] at hes
        obtain ⟨rfl, rfl, ⟨rfl, rfl, rfl⟩, rfl⟩ := hes
        exact (h.came r e he).brought hf hready
  · rw [hes, List.mem_append, List.mem_singleton] at hmem
    obtain hmem | hmem := hmem
    · cases hnot _ hmem
    · cases hmem

theorem Received.step {t : List Event} {s s' : Strand} {l : Strand.Step} {es : List Event}
    (h : Received t s.connection.data) (hm : Strand.Moves s l s' es)
    (hready : Strand.writesReady s l = true) : Received (t ++ es) s'.connection.data where
  came r e he := .step (h.came r) (hm.takes hready he)
  brought xs r ptr data ys hsplit := by
    obtain ⟨zs, ht, _⟩ | ⟨zs, rfl, rfl⟩ := split_of_append hsplit
    · exact h.brought xs r ptr data zs ht
    · exact h.brings hm

namespace Server

theorem mem_announcements {r ptr : Nat} {d : RequestData} {es : List Event} :
    (r, ptr, d) ∈ ConnectionData.announcements es ↔ .requestReady r ptr d ∈ es := by
  rw [ConnectionData.announcements, List.mem_filterMap]
  constructor
  · rintro ⟨y, hy, heq⟩
    cases y with
    | requestReady => cases heq; exact hy
    | _ => cases heq
  · exact fun hmem => ⟨_, hmem, rfl⟩

theorem received_of_run {tr : List (Fired Server Step)} {s : Server} {c : Nat}
    {k : AcceptedConnection} (h : machine.Run init tr s) (hk : s.connections c = some k) :
    Received (eventsOf c (machine.trace tr)) k.strand.connection.data := by
  refine connection_inv (fun _ t s => Received t s.connection.data) ?_ ?_ ?_ h hk
  · rintro _ ⟨fs, u, rfl⟩
    exact received_init fs u
  · intro ls t s l _ hj he hm
    exact hj.step hm ((Bool.and_eq_true _ _).mp he).2
  · exact fun _ _ _ _ hj => ⟨hj.came, hj.brought⟩

/-- **A user is handed what the client sent him**, in any run and on any
connection.  An object that is handed out began with a request of its id, is
handed out once since then, and holds what the packets of that id have brought:
their STDIN up to its end, and the parameters that their PARAMS up to its end
spell, when these are less than 2^32 bytes.  (Of more the code parses as many
bytes as their number, narrowed to a `uint`, says.)  An object that is still
there has been handed out if and only if both of its streams have ended. -/
theorem handed_out_as_received {tr : List (Fired Server Step)} {s : Server} {c : Nat}
    {k : AcceptedConnection} (h : machine.Run init tr s) (hk : s.connections c = some k) :
    (∀ xs r ptr d ys, eventsOf c (machine.trace tr) = xs ++ .requestReady r ptr d :: ys →
      Brought xs r ptr d) ∧
    ∀ r e, k.strand.connection.data.requestMap[r]? = some e →
      ∃ before after, eventsOf c (machine.trace tr) = before ++ .began r e.ptr :: after ∧
        (∀ ptr, .began r ptr ∉ after) ∧
        (Closed (chunks r fcgiStdin after) ∧ Closed (chunks r fcgiParams after) ∧
            handedOut r after = [e.ptr] ∨
          ¬ (Closed (chunks r fcgiStdin after) ∧ Closed (chunks r fcgiParams after)) ∧
            handedOut r after = []) := by
  have hreceived := received_of_run h hk
  refine ⟨hreceived.brought, fun r e he => ?_⟩
  obtain ⟨before, after, ht, hlast, hopen, hdone⟩ := hreceived.came r e he
  refine ⟨before, after, ht, hlast, ?_⟩
  cases hready : e.ready with
  | true => exact .inl (hdone hready)
  | false =>
      obtain ⟨hinput, hnone⟩ := hopen hready
      refine .inr ⟨fun ⟨hstdin, hparams⟩ => ?_, hnone⟩
      rw [hinput.ready_of_closed hstdin hparams] at hready
      cases hready

/-- Between the packets of the request 1 come one for the id 2, which nobody
uses, and behind the end of its STDIN comes more of it. -/
theorem handed_out_as_received_between : ∃ tr s, machine.Run init tr s ∧
    ∃ xs d ys, eventsOf 0 (machine.trace tr) = xs ++ .requestReady 1 0 d :: ys ∧
      d.in_ = [97, 98] ∧ Brought xs 1 0 d := by
  obtain ⟨tr, s, hrun, hs⟩ := Machine.exists_run_of_exec machine init
    [.accept [] fun _ => 0, .strand 0 (.handleRead false
        [1, 1, 0, 1, 0, 8, 0, 0, 0, 1, 1, 0, 0, 0, 0, 0, 1, 5, 0, 1, 0, 1, 0, 0, 97,
          1, 5, 0, 2, 0, 1, 0, 0, 120, 1, 5, 0, 1, 0, 1, 0, 0, 98, 1, 5, 0, 1, 0, 0, 0, 0,
          1, 5, 0, 1, 0, 1, 0, 0, 99, 1, 4, 0, 1, 0, 0, 0, 0]),
      .strand 0 .nextPacket, .strand 0 .nextPacket, .strand 0 .nextPacket, .strand 0 .nextPacket,
      .strand 0 .nextPacket, .strand 0 .nextPacket, .strand 0 .nextPacket]
    (fun tr s => (s.connections 0).isSome &&
      (ConnectionData.announcements (eventsOf 0 (machine.trace tr))).any fun x =>
        x.1 = 1 && (x.2.1 = 0 && x.2.2.in_ = [97, 98])) (by decide +kernel)
  simp only [Bool.and_eq_true, Option.isSome_iff_exists, List.any_eq_true, decide_eq_true_eq,
    Prod.exists] at hs
  obtain ⟨⟨k, hk⟩, r, ptr, d, hmem, rfl, rfl, hin⟩ := hs
  obtain ⟨xs, ys, hsplit⟩ := List.append_of_mem (mem_announcements.mp hmem)
  exact ⟨tr, s, hrun, xs, d, ys, hsplit, hin,
    (handed_out_as_received hrun hk).1 _ _ _ _ _ hsplit⟩

end Server

end Santiago
