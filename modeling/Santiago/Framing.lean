import Santiago.Strand

/-!
# Santiago.Framing

From bytes to packets.  A peer's records, cut into reads in any way, are
handled one after the other, each once and whole: `feed_dispatched`.  A read
may end inside a header, a content or a padding; what is incomplete stays in
the buffer until the rest has come.
-/

namespace Santiago.Connection

open Effect Bytes PacketSocket

/-- One call of `handleRead` for each chunk. -/
def feed : List Bytes → Act Event Connection Unit
  | [] => pure ()
  | chunk :: chunks => do
      handleRead false chunk
      feed chunks

/-- The byte stream of some records. -/
def wire (recs : List WireRecord) : Bytes := recs.flatMap WireRecord.toBytes

@[simp] theorem wire_nil : wire [] = [] := rfl

@[simp] theorem wire_cons (rec : WireRecord) (recs : List WireRecord) :
    wire (rec :: recs) = rec.toBytes ++ wire recs := rfl

/-! ## Packets in order -/

/-- Two moments of a connection between which only its buffers changed. -/
structure SameRequests (c c' : Connection) : Prop where
  data_eq : c'.data = c.data
  state_eq : c'.state = c.state
  wf : c'.WF

/-- The records `recs` are handled in order on a connection that stays open,
from `c` to `c'` and with the events `es`. -/
inductive Dispatched : Connection → List WireRecord → List Event → Connection → Prop
  | nil {c c' : Connection} : SameRequests c c' → Dispatched c [] [] c'
  | cons {c c₀ c₁ c₂ : Connection} {rec : WireRecord} {recs : List WireRecord} {x : Exit Unit}
      {es₁ es₂ : List Event} : SameRequests c c₀ → c₀.state ≠ .closed →
      PacketEffect c₀ rec.requestId rec.type rec.content ⟨x, c₁, es₁⟩ →
        c₁.state ≠ .closed →
      Dispatched c₁ recs es₂ c₂ →
      Dispatched c (rec :: recs)
        (.newPacket rec.requestId rec.type rec.content :: (es₁ ++ es₂)) c₂

theorem SameRequests.trans {c c' c'' : Connection} (h : SameRequests c c')
    (h' : SameRequests c' c'') : SameRequests c c'' :=
  ⟨h'.data_eq.trans h.data_eq, h'.state_eq.trans h.state_eq, h'.wf⟩

theorem Dispatched.of_same {c c' c'' : Connection} {recs : List WireRecord} {es : List Event}
    (hs : SameRequests c c') (h : Dispatched c' recs es c'') : Dispatched c recs es c'' := by
  cases h with
  | nil hs' => exact .nil (hs.trans hs')
  | cons hs' hc heff hc' hrest => exact .cons (hs.trans hs') hc heff hc' hrest

/-- Records that are handled one list after the other are handled as one list. -/
theorem Dispatched.append {c c' c'' : Connection} {recs recs' : List WireRecord}
    {es es' : List Event} (h : Dispatched c recs es c') (h' : Dispatched c' recs' es' c'') :
    Dispatched c (recs ++ recs') (es ++ es') c'' := by
  induction h with
  | nil hs => exact h'.of_same hs
  | cons hs hc heff hc' _ ih =>
      have hall := Dispatched.cons hs hc heff hc' (ih h')
      simpa using hall

/-- Records handled in order can be cut anywhere. -/
theorem Dispatched.split {c c'' : Connection} {recs recs' : List WireRecord} {es'' : List Event}
    (hwf : c.WF) (h : Dispatched c (recs ++ recs') es'' c'') :
    ∃ c' es es', es'' = es ++ es' ∧ Dispatched c recs es c' ∧
      Dispatched c' recs' es' c'' := by
  induction recs generalizing c es'' with
  | nil => exact ⟨c, [], es'', rfl, .nil ⟨rfl, rfl, hwf⟩, h⟩
  | cons rec recs ih =>
      cases h with
      | @cons _ c₀ c₁ _ _ _ x es₁ es₂ hs hc heff hc' hrest =>
          have hlive : ∀ w, x ≠ .abort w := by
            rintro w rfl
            exact hc' heff.closed_of_abort.2
          obtain ⟨c', es, es', rfl, hfst, hsnd⟩ := ih (heff.wf hlive hs.wf) hrest
          refine ⟨c', _, es', ?_, .cons hs hc heff hc' hfst, hsnd⟩
          simp

/-! ## Closed connections stay closed -/

/-- A packet leaves a CLOSED connection CLOSED. -/
theorem PacketEffect.closed {c : Connection} {r : Nat} {t : UInt8} {content : Bytes}
    {o : Outcome Event Connection Unit} (h : PacketEffect c r t content o)
    (hc : c.state = .closed) : o.state.state = .closed := by
  cases h with
  | answerFailed => rfl
  | beganLast _ _ _ hc' => exact absurd hc hc'
  | abortedLast => rfl
  | abortFailed => rfl
  | died _ hc' => exact hc'
  | _ => exact hc

/-- A pass leaves a CLOSED connection CLOSED. -/
theorem PassEffect.closed {c : Connection} {o : Outcome Event Connection Bool}
    (h : PassEffect c o) (hc : c.state = .closed) : o.state.state = .closed := by
  cases h with
  | handled _ h =>
      have hclosed := h.closed hc
      exact hclosed
  | caught _ h =>
      have hclosed := h.closed hc
      exact hclosed
  | died _ h => exact h.closed_of_abort.2
  | _ => exact hc

/-- The read loop leaves a CLOSED connection CLOSED. -/
theorem readLoop_closed {fuel : Nat} {c : Connection} (hwf : c.WF) (hc : c.state = .closed) :
    (owner.readLoop fuel c).state.state = .closed := by
  induction fuel generalizing c with
  | zero => exact hc
  | succ fuel ih =>
      have heffect := nextPacket_effect hwf
      rw [Owner.readLoop]
      rcases hn : owner.nextPacket c with ⟨exit, c', es⟩
      rw [hn] at heffect
      cases exit with
      | throw w => cases heffect
      | abort w =>
          rw [Act.bind_of_abort hn]
          exact heffect.closed hc
      | ret again =>
          rw [Act.bind_of_ret hn]
          have hc' : c'.state = .closed := heffect.closed hc
          cases again with
          | false => exact hc'
          | true => exact ih (heffect.wf hwf) hc'

/-- However much is read, a CLOSED connection stays CLOSED. -/
theorem feed_closed {chunks : List Bytes} {c : Connection} (hwf : c.WF) (hc : c.state = .closed) :
    (feed chunks c).state.state = .closed := by
  induction chunks generalizing c with
  | nil => exact hc
  | cons chunk chunks ih =>
      have henter := Strand.enterHandleRead_run c hwf false chunk
      rw [if_pos hc] at henter
      have hread : handleRead false chunk c = ⟨.ret (), c.received chunk, []⟩ := by
        rw [handleRead, Owner.handleRead, Act.bind_of_ret henter]
        rfl
      rw [feed, Act.bind_of_ret hread]
      have hwf' : (c.received chunk).WF := hwf
      exact ih hwf' hc

/-! ## Reading records off the buffer -/

/-- The buffer does not hold the whole of the next record. -/
def Short (b : Bytes) (recs : List WireRecord) : Prop :=
  ∀ rec rest, recs = rec :: rest → b.length < rec.toBytes.length

theorem append_of_length_le {xs ys b f : Bytes} (h : b ++ f = xs ++ ys)
    (hle : xs.length ≤ b.length) : ∃ b', b = xs ++ b' ∧ ys = b' ++ f := by
  obtain ⟨mid, rfl, rfl⟩ | ⟨mid, rfl, rfl⟩ := List.append_eq_append_iff.mp h
  · have hmid : mid = [] := by
      rw [List.length_append] at hle
      exact List.eq_nil_of_length_eq_zero (by omega)
    subst hmid
    exact ⟨[], by simp, by simp⟩
  · exact ⟨mid, rfl, rfl⟩

/-- Eight bytes of a record are its header. -/
theorem cast_of_wire {b f : Bytes} {rec : WireRecord} {recs : List WireRecord}
    (h : b ++ f = wire (rec :: recs)) (hlen : fcgiHeaderLen ≤ b.length) :
    FcgiHeader.cast b = rec.header := by
  rw [wire_cons, WireRecord.toBytes, List.append_assoc] at h
  obtain ⟨b', rfl, _⟩ := append_of_length_le h (by
    rw [FcgiHeader.length_toBytes]
    exact hlen)
  exact FcgiHeader.cast_toBytes_append _ _

/-- A buffer that holds a whole record holds it at its head, and the rest behind it. -/
theorem nextRecord_of_wire {b f : Bytes} {rec : WireRecord} {recs : List WireRecord}
    (h : b ++ f = wire (rec :: recs)) (hlen : rec.toBytes.length ≤ b.length) :
    NextRecord b rec.header rec.content ∧ b.drop rec.header.recordLength ++ f = wire recs := by
  obtain ⟨b', rfl, hrest⟩ := append_of_length_le h hlen
  have hrec := rec.length_toBytes
  have hbytes : rec.toBytes = rec.header.toBytes ++ (rec.content ++ rec.padding) := rfl
  refine ⟨⟨?_, ?_, rfl, ?_, ?_⟩, ?_⟩
  · have h8 := rec.header.eight_le_recordLength
    rw [List.length_append, hrec, fcgiHeaderLen]
    omega
  · rw [hbytes, List.append_assoc]
    exact FcgiHeader.cast_toBytes_append _ _
  · rw [List.length_append, hrec]
    omega
  · rw [hbytes, List.append_assoc, fcgiHeaderLen,
      drop_append_of_length (FcgiHeader.length_toBytes _), List.append_assoc,
      take_append_of_length rec.contentLength_header.symm]
  · rw [drop_append_of_length hrec]
    exact hrest.symm

/-- Where no record is to come, the buffer holds less than a header. -/
theorem length_lt_of_wire_nil {b f : Bytes} (h : b ++ f = wire []) : b.length < fcgiHeaderLen := by
  obtain ⟨rfl, _⟩ := List.append_eq_nil_iff.mp h
  decide

/-- The next record of a buffer that holds the beginning of some records is the
first of them. -/
theorem NextRecord.of_wire {b f : Bytes} {recs : List WireRecord} {h : FcgiHeader}
    {content : Bytes} (hnext : NextRecord b h content) (hbuf : b ++ f = wire recs) :
    ∃ rec rest, recs = rec :: rest ∧ h = rec.header ∧ content = rec.content ∧
      b.drop rec.header.recordLength ++ f = wire rest := by
  cases recs with
  | nil => exact absurd (length_lt_of_wire_nil hbuf) (Nat.not_lt.mpr hnext.header_le)
  | cons rec recs =>
      have hcast := hnext.cast_eq
      rw [cast_of_wire hbuf hnext.header_le] at hcast
      subst hcast
      obtain ⟨hrec, hdrop⟩ := nextRecord_of_wire hbuf (by
        rw [rec.length_toBytes]
        exact hnext.record_le)
      exact ⟨rec, recs, rfl, rfl, hnext.content_eq.symm.trans hrec.content_eq, hdrop⟩

/-- Some of the records were handled, and the buffer is left with what has
come of the others. -/
def TakesRecords (c : Connection) (recs : List WireRecord) (f : Bytes)
    (o : Outcome Event Connection Unit) : Prop :=
  ∃ done rest, recs = done ++ rest ∧ Dispatched c done o.events o.state ∧ o.exit = .ret () ∧
    o.state.WF ∧ o.state.socket.inputBuffer ++ f = wire rest ∧
    Short o.state.socket.inputBuffer rest

/-- The loop stops where the buffer holds no whole record. -/
theorem TakesRecords.stop {c : Connection} {recs : List WireRecord} {f : Bytes} (hwf : c.WF)
    (hbuf : c.socket.inputBuffer ++ f = wire recs) (hshort : Short c.socket.inputBuffer recs) :
    TakesRecords c recs f ⟨.ret (), c, []⟩ :=
  ⟨[], recs, rfl, .nil ⟨rfl, rfl, hwf⟩, rfl, hwf, hbuf, hshort⟩

/-- One record handled, and then the rest of them. -/
theorem TakesRecords.cons {c c₁ : Connection} {rec : WireRecord} {recs : List WireRecord}
    {f : Bytes} {x : Exit Unit} {es : List Event} {n : Nat} {o : Outcome Event Connection Unit}
    (hwf : c.WF) (hc : c.state ≠ .closed)
    (heff : PacketEffect c rec.requestId rec.type rec.content ⟨x, c₁, es⟩)
    (hc₁ : c₁.state ≠ .closed) (h : TakesRecords (c₁.consumed n) recs f o) :
    TakesRecords c (rec :: recs) f
      (o.after (.newPacket rec.requestId rec.type rec.content :: es)) := by
  obtain ⟨done, rest, rfl, hdone, hexit, hwf', hbuf, hshort⟩ := h
  have hlive : ∀ w, x ≠ .abort w := by
    rintro w rfl
    exact hc₁ heff.closed_of_abort.2
  have hsame : SameRequests c₁ (c₁.consumed n) := ⟨rfl, rfl, heff.wf hlive hwf⟩
  exact ⟨rec :: done, rest, rfl,
    .cons ⟨rfl, rfl, hwf⟩ hc heff hc₁ (hdone.of_same hsame), hexit, hwf', hbuf, hshort⟩

/-- **The loop of `handleRead`** takes the whole records off the buffer, in
order, and leaves what is short of the next one. -/
theorem readLoop_takesRecords {fuel : Nat} {c : Connection} {recs : List WireRecord} {f : Bytes}
    (hwf : c.WF) (hbuf : c.socket.inputBuffer ++ f = wire recs)
    (hfuel : c.socket.inputBuffer.length < fuel) (hc : c.state ≠ .closed)
    (hend : (owner.readLoop fuel c).state.state ≠ .closed) :
    TakesRecords c recs f (owner.readLoop fuel c) := by
  induction fuel generalizing c recs with
  | zero => exact absurd hfuel (Nat.not_lt_zero _)
  | succ fuel ih =>
      have heffect := nextPacket_effect hwf
      rw [Owner.readLoop] at hend ⊢
      rcases hn : owner.nextPacket c with ⟨exit, c', es⟩
      rw [hn] at heffect
      -- a record that was handled on a connection that stays open
      have hgo : ∀ {h : FcgiHeader} {content : Bytes} {x : Exit Unit} {c₁ : Connection}
          {es₁ : List Event}, NextRecord c.socket.inputBuffer h content →
          PacketEffect c h.requestId h.type content ⟨x, c₁, es₁⟩ →
            c₁.state ≠ .closed →
          (owner.readLoop fuel (c₁.consumed h.recordLength)).state.state ≠ .closed →
          TakesRecords c recs f ((owner.readLoop fuel (c₁.consumed h.recordLength)).after
            (.newPacket h.requestId h.type content :: es₁)) := by
        intro h content x c₁ es₁ hnext heff hc₁ hlast
        obtain ⟨rec, recs, rfl, rfl, rfl, hdrop⟩ := hnext.of_wire hbuf
        have hid : rec.header.requestId = rec.requestId := rec.requestId_header
        rw [hid] at heff ⊢
        have hlive : ∀ w, x ≠ .abort w := by
          rintro w rfl
          exact hc₁ heff.closed_of_abort.2
        have hbuffer := heff.inputBuffer_eq hlive
        have h8 := rec.header.eight_le_recordLength
        have hle := hnext.record_le
        refine .cons hwf hc heff hc₁ (ih (heff.wf hlive hwf) ?_ ?_ hc₁ hlast)
        · rw [inputBuffer_consumed, hbuffer]
          exact hdrop
        · rw [inputBuffer_consumed, hbuffer, List.length_drop]
          omega
      cases heffect with
      | drained hlt =>
          rw [Act.bind_of_ret hn]
          refine .stop hwf hbuf fun rec rest _ => ?_
          rw [rec.length_toBytes]
          exact Nat.lt_of_lt_of_le hlt rec.header.eight_le_recordLength
      | unsupported hle hcast hv =>
          cases recs with
          | nil => exact absurd (length_lt_of_wire_nil hbuf) (Nat.not_lt.mpr hle)
          | cons rec recs =>
              rw [cast_of_wire hbuf hle] at hcast
              subst hcast
              exact absurd rfl hv
      | incomplete hle hcast hv hlt =>
          rw [Act.bind_of_ret hn]
          refine .stop hwf hbuf fun rec rest hrecs => ?_
          subst hrecs
          rw [cast_of_wire hbuf hle] at hcast
          rw [rec.length_toBytes, hcast]
          exact hlt
      | died _ heff => exact absurd heff.closed_of_abort.1 hc
      | @handled h content c₁ es₁ hnext heff =>
          have hwf₁ : c₁.WF := heff.wf (by simp) hwf
          rw [Act.bind_of_ret hn] at hend ⊢
          by_cases hc₁ : c₁.socket.state = .closed
          · simp only [hc₁, ne_eq, not_true_eq_false, decide_false, Act.when_false] at hend
            exact absurd (hwf₁.mpr hc₁) hend
          · simp only [hc₁, ne_eq, not_false_eq_true, decide_true, Act.when_true] at hend ⊢
            exact hgo hnext heff (fun hclosed => hc₁ (hwf₁.mp hclosed)) hend
      | @caught h content w c₁ es₁ hnext heff =>
          have hwf₁ : c₁.WF := heff.wf (by simp) hwf
          rw [Act.bind_of_ret hn] at hend ⊢
          simp only [Act.when_true] at hend ⊢
          refine hgo hnext heff (fun hclosed => hend ?_) hend
          exact readLoop_closed (c := c₁.consumed h.recordLength) hwf₁ hclosed

/-- **Framing**: records cut into reads in any way are handled in order, each
once and whole, as long as the connection stays open. -/
theorem feed_dispatched {chunks : List Bytes} {c : Connection} {recs : List WireRecord}
    (hwf : c.WF) (hbuf : c.socket.inputBuffer ++ chunks.flatten = wire recs)
    (hshort : Short c.socket.inputBuffer recs) (hend : (feed chunks c).state.state ≠ .closed) :
    Dispatched c recs (feed chunks c).events (feed chunks c).state ∧
      (feed chunks c).exit = .ret () := by
  induction chunks generalizing c recs with
  | nil =>
      cases recs with
      | nil => exact ⟨.nil ⟨rfl, rfl, hwf⟩, rfl⟩
      | cons rec recs =>
          have hlt := hshort rec recs rfl
          rw [List.flatten_nil, List.append_nil] at hbuf
          rw [hbuf, wire_cons, List.length_append] at hlt
          omega
  | cons chunk chunks ih =>
      have hc : c.state ≠ .closed := fun hc => hend (feed_closed hwf hc)
      have henter := Strand.enterHandleRead_run c hwf false chunk
      simp only [hc, if_false, Bool.false_eq_true] at henter
      have hread : handleRead false chunk c =
          owner.readLoop ((c.received chunk).socket.inputBuffer.length + 1) (c.received chunk) := by
        rw [handleRead, Owner.handleRead, Act.bind_of_ret henter]
        rfl
      have hwf' : (c.received chunk).WF := hwf
      have hbuf' : (c.received chunk).socket.inputBuffer ++ chunks.flatten = wire recs := by
        rw [← hbuf, List.flatten_cons]
        simp [received]
      rw [feed] at hend ⊢
      by_cases hlast : (handleRead false chunk c).state.state = .closed
      · -- a connection that closed while reading is still closed at the end
        refine absurd ?_ hend
        rcases hr : handleRead false chunk c with ⟨exit, c', es⟩
        rw [hr] at hlast
        cases exit with
        | ret u =>
            rw [Act.bind_of_ret hr]
            obtain ⟨_, hrun, _, _⟩ := Strand.handleRead_run hwf false chunk (by rw [hr])
            rw [hr] at hrun
            exact feed_closed (Strand.wf_of_run_from hwf hrun) hlast
        | throw w =>
            rw [Act.bind_of_throw hr]
            exact hlast
        | abort w =>
            rw [Act.bind_of_abort hr]
            exact hlast
      · rw [hread] at hlast
        obtain ⟨done, rest, rfl, hdone, hexit, hwf₁, hbuf₁, hshort₁⟩ :=
          readLoop_takesRecords hwf' hbuf' (Nat.lt_succ_self _) hc hlast
        rcases hr : owner.readLoop ((c.received chunk).socket.inputBuffer.length + 1)
          (c.received chunk) with ⟨exit, c', es⟩
        rw [hr] at hdone hexit hwf₁ hbuf₁ hshort₁
        obtain rfl : exit = .ret () := hexit
        rw [Act.bind_of_ret (hread.trans hr)] at hend ⊢
        obtain ⟨hrest, hexit'⟩ := ih hwf₁ hbuf₁ hshort₁ hend
        have hsame : SameRequests c (c.received chunk) := ⟨rfl, rfl, hwf'⟩
        exact ⟨(hdone.of_same hsame).append hrest, hexit'⟩

end Santiago.Connection
