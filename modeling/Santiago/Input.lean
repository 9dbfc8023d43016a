import Santiago.Lib.Chunks
import Santiago.Ready
import Santiago.Replies

/-!
# Santiago.Input

What a connection makes of the packets it gets for one id.  An entry that is
not ready yet holds what the packets since its beginning brought of the two
streams, up to the empty packet of each, and nothing else: no packet of
another id, none that was rejected, and nothing of an entry that had the id
before.
-/

namespace Santiago

open Effect Bytes PacketSocket Connection Chunks

/-! ## The streams of an id -/

/-- The content of an event that is a packet of the id `r` and the type `t`. -/
def Event.chunk (r : Nat) (t : UInt8) : Event → Option Bytes
  | .newPacket r' t' content => if r' = r ∧ t' = t then some content else none
  | _ => none

/-- What comes of the stream `t` of the id `r`. -/
def chunks (r : Nat) (t : UInt8) (es : List Event) : List Bytes := es.filterMap (Event.chunk r t)

@[simp] theorem chunks_nil (r : Nat) (t : UInt8) : chunks r t [] = [] := rfl

@[simp] theorem chunks_append (r : Nat) (t : UInt8) (es es' : List Event) :
    chunks r t (es ++ es') = chunks r t es ++ chunks r t es' := List.filterMap_append

/-- Where no packet comes, no content does. -/
theorem chunks_eq_nil {r : Nat} {t : UInt8} {es : List Event}
    (h : ∀ r t content, .newPacket r t content ∉ es) : chunks r t es = [] := by
  rw [chunks, List.filterMap_eq_nil_iff]
  intro y hy
  cases y with
  | newPacket r t content => exact absurd hy (h r t content)
  | _ => rfl

/-- Behind a packet no other one is dispatched in the same step. -/
theorem chunks_packet {r r' : Nat} {t t' : UInt8} {content : Bytes} {es : List Event}
    (h : ∀ r t content, .newPacket r t content ∉ es) :
    chunks r t (.newPacket r' t' content :: es) = if r' = r ∧ t' = t then [content] else [] := by
  rw [← List.singleton_append, chunks_append, chunks_eq_nil h, List.append_nil]
  by_cases hsame : r' = r ∧ t' = t
  · simp [chunks, Event.chunk, hsame]
  · simp [chunks, Event.chunk, hsame]

/-- The object that an event hands out under the id `r`. -/
def Event.handedOut (r : Nat) : Event → Option Nat
  | .requestReady r' ptr _ => if r' = r then some ptr else none
  | _ => none

/-- The objects that are handed out under the id `r`. -/
def handedOut (r : Nat) (es : List Event) : List Nat := es.filterMap (Event.handedOut r)

@[simp] theorem handedOut_nil (r : Nat) : handedOut r [] = [] := rfl

@[simp] theorem handedOut_append (r : Nat) (es es' : List Event) :
    handedOut r (es ++ es') = handedOut r es ++ handedOut r es' := List.filterMap_append

/-- Where no request is ready, none is handed out. -/
theorem handedOut_eq_nil {r : Nat} {es : List Event} (h : ∀ ptr d, .requestReady r ptr d ∉ es) :
    handedOut r es = [] := by
  rw [handedOut, List.filterMap_eq_nil_iff]
  intro y hy
  cases y with
  | requestReady r' ptr d =>
      rw [Event.handedOut, if_neg]
      rintro rfl
      exact h ptr d hy
  | _ => rfl

/-! ## What an entry holds -/

/-- The parameters in the bytes of the PARAMS stream. -/
def paramsOf (bytes : Bytes) : ParamsMap := parsePairs bytes (bytes.length % 2 ^ 32) ∅

/-- The entry holds what came of its two streams. -/
structure InputIs (stdin params : List Bytes) (e : Entry) : Prop where
  in_eq : e.data.in_ = payload stdin
  in_iff : e.state &&& inCompleted ≠ 0 ↔ Closed stdin
  paramsBuffer_eq : e.data.paramsBuffer = payload params
  params_iff : e.state &&& paramsCompleted ≠ 0 ↔ Closed params
  paramsMap_open : ¬ Closed params → e.data.paramsMap = ∅
  paramsMap_closed : Closed params → e.data.paramsMap = paramsOf (payload params)

/-- A new request has received nothing. -/
theorem inputIs_new (ptr : Nat) (status : BitVec 32) :
    InputIs [] [] ⟨0, ptr, RequestData.new status⟩ where
  in_eq := rfl
  in_iff := by simp
  paramsBuffer_eq := rfl
  params_iff := by simp
  paramsMap_open _ := rfl
  paramsMap_closed h := absurd h not_closed_nil

/-- A packet of a stream is added to the stream. -/
def addedIf (t t' : UInt8) (content : Bytes) : List Bytes := if t = t' then [content] else []

/-- The content of a packet goes behind what came before it. -/
theorem InputIs.receives {stdin params : List Bytes} {e : Entry} {t : UInt8} {content : Bytes}
    {f : RequestState → RequestData → RequestState × RequestData} (h : InputIs stdin params e)
    (hf : Receives t content e f) :
    InputIs (stdin ++ addedIf t fcgiStdin content) (params ++ addedIf t fcgiParams content)
      ⟨(f e.state e.data).1, e.ptr, (f e.state e.data).2⟩ := by
  cases hf with
  | stdin ht hbit =>
      subst ht
      have hopen : ¬ Closed stdin := fun hc => h.in_iff.mpr hc hbit
      rw [addedIf, addedIf, if_pos rfl, if_neg (by decide), List.append_nil]
      unfold ConnectionData.receiveStdin
      by_cases hempty : content = []
      · subst hempty
        obtain ⟨hsame, hset⟩ := inCompleted_or e.state
        obtain ⟨hpayload, hclosed⟩ := payload_close hopen
        rw [if_pos List.length_nil]
        exact
          { in_eq := h.in_eq.trans hpayload.symm
            in_iff := iff_of_true hset hclosed
            paramsBuffer_eq := h.paramsBuffer_eq
            params_iff := by
              rw [← h.params_iff]
              exact Iff.of_eq (congrArg (· ≠ 0) hsame)
            paramsMap_open := h.paramsMap_open
            paramsMap_closed := h.paramsMap_closed }
      · obtain ⟨hpayload, hstill⟩ := payload_concat hopen hempty
        rw [if_neg (by simpa using hempty)]
        exact
          { h with
            in_eq := (congrArg (· ++ content) h.in_eq).trans hpayload.symm
            in_iff := iff_of_false (by simpa using hbit) hstill }
  | params ht hbit =>
      subst ht
      have hopen : ¬ Closed params := fun hc => h.params_iff.mpr hc hbit
      rw [addedIf, addedIf, if_neg (by decide), if_pos rfl, List.append_nil]
      unfold ConnectionData.receiveParams
      by_cases hempty : content = []
      · subst hempty
        obtain ⟨hsame, hset⟩ := paramsCompleted_or e.state
        obtain ⟨hpayload, hclosed⟩ := payload_close hopen
        rw [if_pos List.length_nil]
        exact
          { in_eq := h.in_eq
            in_iff := by
              rw [← h.in_iff]
              exact Iff.of_eq (congrArg (· ≠ 0) hsame)
            paramsBuffer_eq := h.paramsBuffer_eq.trans hpayload.symm
            params_iff := iff_of_true hset hclosed
            paramsMap_open := fun hnot => absurd hclosed hnot
            paramsMap_closed := fun _ => by
              rw [hpayload, ← h.paramsBuffer_eq]
              show parsePairs _ _ e.data.paramsMap = _
              rw [h.paramsMap_open hopen]
              rfl }
      · obtain ⟨hpayload, hstill⟩ := payload_concat hopen hempty
        rw [if_neg (by simpa using hempty)]
        exact
          { h with
            paramsBuffer_eq := (congrArg (· ++ content) h.paramsBuffer_eq).trans hpayload.symm
            params_iff := iff_of_false (by simpa using hbit) hstill
            paramsMap_open := fun _ => h.paramsMap_open hopen
            paramsMap_closed := fun hc => absurd hc hstill }

/-- A packet behind the empty one of its stream changes nothing. -/
theorem InputIs.rejects {stdin params : List Bytes} {e : Entry} {d : ConnectionData} {r : Nat}
    {t : UInt8} {content : Bytes} (h : InputIs stdin params e) (he : d.requestMap[r]? = some e)
    (hr : Rejects d r t content) :
    InputIs (stdin ++ addedIf t fcgiStdin content) (params ++ addedIf t fcgiParams content) e := by
  have hother : t ≠ fcgiStdin → t ≠ fcgiParams →
      InputIs (stdin ++ addedIf t fcgiStdin content)
        (params ++ addedIf t fcgiParams content) e := by
    intro hs hp
    rw [addedIf, addedIf, if_neg hs, if_neg hp, List.append_nil, List.append_nil]
    exact h
  cases hr with
  | shortBegin ht =>
      subst ht
      exact hother (by decide) (by decide)
  | idInUse hb =>
      obtain rfl := hb.1
      exact hother (by decide) (by decide)
  | data ht =>
      subst ht
      exact hother (by decide) (by decide)
  | streamUnknown _ hnone =>
      rw [he] at hnone
      cases hnone
  | stdinClosed ht he' hbit =>
      subst ht
      rw [he, Option.some.injEq] at he'
      subst he'
      have hclosed := h.in_iff.mp hbit
      rw [addedIf, addedIf, if_pos rfl, if_neg (by decide), List.append_nil]
      exact
        { h with
          in_eq := h.in_eq.trans (hclosed.payload_append _).symm
          in_iff := iff_of_true hbit (hclosed.append _) }
  | paramsClosed ht he' hbit =>
      subst ht
      rw [he, Option.some.injEq] at he'
      subst he'
      have hclosed := h.params_iff.mp hbit
      rw [addedIf, addedIf, if_neg (by decide), if_pos rfl, List.append_nil]
      exact
        { h with
          paramsBuffer_eq := h.paramsBuffer_eq.trans (hclosed.payload_append _).symm
          params_iff := iff_of_true hbit (hclosed.append _)
          paramsMap_open := fun hnot => absurd (hclosed.append _) hnot
          paramsMap_closed := fun _ => by
            rw [hclosed.payload_append]
            exact h.paramsMap_closed hclosed }

/-! ## What a step does to an entry -/

/-- How an entry behind a step came about in it: it is new, or it was there
and, as long as it was not ready, has taken what came for it; it is handed out
when that makes it ready. -/
inductive Takes (d : ConnectionData) (r : Nat) (e : Entry) (es : List Event) : Prop
  | began {before : List Event} : es = before ++ [.began r e.ptr] → e.ready = false →
      InputIs [] [] e → Takes d r e es
  | took {e' : Entry} : d.requestMap[r]? = some e' → e'.ptr = e.ptr →
      (∀ ptr, .began r ptr ∉ es) →
      (e'.ready = false → ∀ stdin params, InputIs stdin params e' →
        InputIs (stdin ++ chunks r fcgiStdin es) (params ++ chunks r fcgiParams es) e) →
      e'.ready = e.ready ∧ handedOut r es = [] ∨
        e'.ready = false ∧ e.ready = true ∧ handedOut r es = [e.ptr] →
      Takes d r e es

/-- The events are no packet, no beginning and no announcement. -/
def Event.isQuiet : Event → Bool
  | .newPacket .. => false
  | .began .. => false
  | .requestReady .. => false
  | _ => true

/-- A step that is quiet leaves an entry alone. -/
theorem takes_quiet {d : ConnectionData} {r : Nat} {e : Entry} {es : List Event}
    (he : d.requestMap[r]? = some e) (hquiet : ∀ y ∈ es, y.isQuiet = true) :
      Takes d r e es := by
  have hnot : ∀ {y : Event}, y.isQuiet = false → y ∉ es := by
    intro y hy hmem
    exact Bool.false_ne_true (hy.symm.trans (hquiet y hmem))
  refine .took he rfl (fun _ => hnot rfl) (fun _ stdin params h => ?_)
    (.inl ⟨rfl, handedOut_eq_nil fun _ _ => hnot rfl⟩)
  have hnone : ∀ t, chunks r t es = [] := fun _ => chunks_eq_nil fun _ _ _ => hnot rfl
  rw [hnone, hnone, List.append_nil, List.append_nil]
  exact h

theorem isQuiet_wrote {ps : List (FcgiHeader × Bytes)} {y : Event} (h : y ∈ ps.map wroteEvent) :
    y.isQuiet = true := by
  obtain ⟨_, _, rfl⟩ := wroteEvent_quiet h
  rfl

namespace Connection

/-- Each entry takes what the packet holds for it, and no other content. -/
theorem PacketEffect.takes {c c' : Connection} {r r' : Nat} {t : UInt8} {content : Bytes}
    {x : Exit Unit} {es : List Event} {e : Entry} (h : PacketEffect c r' t content ⟨x, c', es⟩)
    (hlive : ∀ w, x ≠ .abort w) (he : c'.data.requestMap[r]? = some e) :
    Takes c.data r e (.newPacket r' t content :: es) := by
  have hchunks : ∀ t₀, chunks r t₀ (.newPacket r' t content :: es) =
      if r' = r then addedIf t t₀ content else [] := by
    intro t₀
    rw [chunks_packet fun _ _ _ => h.newPacket_notMem hlive]
    unfold addedIf
    split <;> split <;> simp_all
  have hbegan : (∀ ptr, .began r ptr ∉ es) →
      ∀ ptr, .began r ptr ∉ .newPacket r' t content :: es := by
    intro hnot ptr hmem
    obtain hmem | hmem := List.mem_cons.mp hmem
    · cases hmem
    · exact hnot ptr hmem
  -- an entry that the packet is not meant for, or that takes it as `htakes` says
  have hkeeps : c.data.requestMap[r]? = some e → (∀ ptr, .began r ptr ∉ es) →
      (∀ ptr d, .requestReady r ptr d ∉ es) →
      (r' = r → ∀ stdin params, InputIs stdin params e →
        InputIs (stdin ++ addedIf t fcgiStdin content)
          (params ++ addedIf t fcgiParams content) e) →
      Takes c.data r e (.newPacket r' t content :: es) := by
    intro hold hnew hready htakes
    refine .took hold rfl (hbegan hnew) (fun _ stdin params hinput => ?_) (.inl ⟨rfl, ?_⟩)
    · rw [hchunks, hchunks]
      split
      · next hr => exact htakes hr stdin params hinput
      · rw [List.append_nil, List.append_nil]
        exact hinput
    · have hnone : handedOut r es = [] := handedOut_eq_nil hready
      exact hnone
  have hquietly : c.data.requestMap[r]? = some e → (∀ y ∈ es, y.isQuiet = true) →
      (r' = r → ∀ stdin params, InputIs stdin params e →
        InputIs (stdin ++ addedIf t fcgiStdin content)
          (params ++ addedIf t fcgiParams content) e) →
      Takes c.data r e (.newPacket r' t content :: es) := by
    intro hold hquiet htakes
    refine hkeeps hold (fun ptr hmem => ?_) (fun ptr d hmem => ?_) htakes
    · cases hquiet _ hmem
    · cases hquiet _ hmem
  have hneither : t ≠ fcgiStdin → t ≠ fcgiParams →
      ∀ stdin params, InputIs stdin params e →
      InputIs (stdin ++ addedIf t fcgiStdin content)
        (params ++ addedIf t fcgiParams content) e := by
    intro hs hp stdin params hinput
    rw [addedIf, addedIf, if_neg hs, if_neg hp, List.append_nil, List.append_nil]
    exact hinput
  have hbegins : BeginsRequest t content → (c.data.insertNew r').requestMap[r]? = some e →
      es = [.began r' c.data.nextPtr] → Takes c.data r e (.newPacket r' t content :: es) := by
    intro hb hnew hes
    rw [ConnectionData.getElem?_insertNew] at hnew
    split at hnew
    · next hr =>
        obtain rfl := Option.some.inj hnew
        subst hr hes
        exact .began (List.singleton_append ..).symm (by simp [Entry.ready]) (inputIs_new _ _)
    · next hr =>
        refine hkeeps hnew ?_ ?_ fun hr' => absurd hr' hr
        · intro ptr hmem
          rw [hes, List.mem_singleton, Event.began.injEq] at hmem
          exact hr hmem.1.symm
        · simp [hes]
  have hreceives : ∀ {e' f}, Receives t content e' f → c.data.requestMap[r']? = some e' →
      (c.data.modifyEntry r' f).requestMap[r]? = some e → (∀ ptr, .began r ptr ∉ es) →
      (es = [] ∧ Entry.ready ⟨(f e'.state e'.data).1, e'.ptr,
        (f e'.state e'.data).2⟩ = false ∨
        es = [.requestReady r' e'.ptr (f e'.state e'.data).2] ∧
          Entry.ready ⟨(f e'.state e'.data).1, e'.ptr, (f e'.state e'.data).2⟩ = true) →
      Takes c.data r e (.newPacket r' t content :: es) := by
    intro e' f hf hold hnew hnot hready
    rw [ConnectionData.getElem?_modifyEntry, hold] at hnew
    split at hnew
    · next hr =>
        subst hr
        obtain rfl := Option.some.inj hnew
        refine .took hold rfl (hbegan hnot) (fun _ stdin params hinput => ?_) ?_
        · rw [hchunks, hchunks, if_pos rfl, if_pos rfl]
          exact hinput.receives hf
        · rw [hf.ready_eq_false]
          obtain ⟨rfl, hready⟩ | ⟨rfl, hready⟩ := hready
          · exact .inl ⟨hready.symm, rfl⟩
          · have hnone : handedOut r' [.newPacket r' t content] = [] := rfl
            refine .inr ⟨rfl, hready, ?_⟩
            rw [← List.singleton_append, handedOut_append, hnone, List.nil_append]
            simp [handedOut, Event.handedOut]
    · next hr =>
        refine hkeeps hnew hnot (fun ptr d hmem => ?_) fun hr' => absurd hr' hr
        obtain ⟨rfl, _⟩ | ⟨rfl, _⟩ := hready
        · cases hmem
        · rw [List.mem_singleton, Event.requestReady.injEq] at hmem
          exact hr hmem.1.symm
  cases h with
  | rejected hr =>
      refine hquietly he (by simp) ?_
      rintro rfl stdin params hinput
      exact hinput.rejects he hr
  | answered ha =>
      refine hquietly he (fun _ => isQuiet_wrote) fun _ => ?_
      cases ha with
      | getValues ht => exact hneither (by rw [ht]; decide) (by rw [ht]; decide)
      | unknownRole ht => exact hneither (by rw [ht]; decide) (by rw [ht]; decide)
      | unknownType ht =>
          refine hneither ?_ ?_
          · rintro rfl
            exact ht (by simp)
          · rintro rfl
            exact ht (by simp)
  | answerFailed => simp at he
  | began hb => exact hbegins hb he rfl
  | beganLast hb => exact hbegins hb he rfl
  | abortUnknown ht =>
      exact hquietly he (by simp [wroteEvent, Event.isQuiet]) fun _ =>
        hneither (by rw [ht]; decide) (by rw [ht]; decide)
  | aborted ht =>
      rw [ConnectionData.getElem?_erase] at he
      split at he
      · cases he
      · exact hquietly he (by simp [wroteEvent, Event.isQuiet]) fun _ =>
          hneither (by rw [ht]; decide) (by rw [ht]; decide)
  | abortedLast => simp at he
  | abortFailed => simp at he
  | received hf hold hready => exact hreceives hf hold he (by simp) (.inl ⟨rfl, hready⟩)
  | receivedReady hf hold hready => exact hreceives hf hold he (by simp) (.inr ⟨rfl, hready⟩)
  | died => exact absurd rfl (hlive _)

/-- A pass gives each entry what its packet holds for it. -/
theorem PassEffect.takes {c c' : Connection} {again : Bool} {es : List Event} {r : Nat} {e : Entry}
    (h : PassEffect c ⟨.ret again, c', es⟩) (he : c'.data.requestMap[r]? = some e) :
    Takes c.data r e es := by
  cases h with
  | drained => exact takes_quiet he (by simp)
  | unsupported => exact takes_quiet he (by simp)
  | incomplete => exact takes_quiet he (by simp)
  | handled _ h =>
      have htakes := h.takes (by simp) he
      exact htakes
  | caught _ h =>
      have htakes := h.takes (by simp) he
      exact htakes

/-- A reply gives no entry anything. -/
theorem CommitEffect.takes {c c' : Connection} {r' ptr : Nat} {es : List Event} {r : Nat}
    {e : Entry} (h : CommitEffect c r' ptr ⟨.ret (), c', es⟩)
    (he : c'.data.requestMap[r]? = some e) : Takes c.data r e es := by
  cases h with
  | stale => exact takes_quiet he (by simp)
  | replied =>
      rw [ConnectionData.getElem?_erase] at he
      split at he
      · cases he
      · refine takes_quiet he fun y hy => ?_
        simp only [List.cons_append, List.mem_cons, List.mem_append, List.not_mem_nil,
          or_false] at hy
        obtain rfl | hy | rfl := hy
        · rfl
        · exact isQuiet_wrote hy
        · rfl
  | repliedLast => simp at he
  | replyFailed => simp at he

end Connection

end Santiago
