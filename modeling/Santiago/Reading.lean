import Santiago.PacketSocket

/-!
# Santiago.Reading

What the read loop makes of a byte stream, whatever the bytes are and
whoever owns the socket.  `Reads` says it for one buffer: the packets that
are passed on and the bytes that stay.

A stream arrives in reads of any size.  The cuts between them are invisible
except in one place: a record of an unsupported version is skipped without
waiting for the rest of it, so a cut behind its header shifts everything that
follows.  `handleRead_cuts_invisible_iff` says that this is the only one.
-/

namespace Santiago

open Effect Bytes PacketSocket

namespace PacketSocket.Owner

variable {σ : Type} (o : Owner σ)

/-! ## Owners whose callback keeps the socket open -/

/-- The socket is a part of the owner, and the callback, which may return or
throw, neither closes it nor touches its private input buffer. -/
structure KeepsOpen : Prop where
  socket_setSocket : ∀ p s, o.socket (o.setSocket p s) = p
  exit_ne_abort : ∀ r t content s w, (o.socket s).state ≠ .closed →
    (o.newPacketCallback false r t content s).exit ≠ .abort w
  state_ne_closed : ∀ r t content s, (o.socket s).state ≠ .closed →
    (o.socket (o.newPacketCallback false r t content s).state).state ≠ .closed
  inputBuffer_eq : ∀ r t content s, (o.socket s).state ≠ .closed →
    (o.socket (o.newPacketCallback false r t content s).state).inputBuffer =
      (o.socket s).inputBuffer

/-- The same owner, which also notes what its callback is called with. -/
def traced : Owner (σ × List (Nat × UInt8 × Bytes)) where
  socket s := o.socket s.1
  setSocket p s := (o.setSocket p s.1, s.2)
  newPacketCallback ec r t content := fun s =>
    let out := o.newPacketCallback ec r t content s.1
    ⟨out.exit, (out.state, s.2 ++ [(r, t, content)]), out.events⟩

/-- One call of `handleRead` for each chunk. -/
def feed : List Bytes → Act Event σ Unit
  | [] => pure ()
  | chunk :: chunks => do
      o.handleRead false chunk
      feed chunks

end PacketSocket.Owner

/-! ## Reading a buffer -/

/-- What the callback gets for the record at the head of a buffer. -/
def packetAt (b : Bytes) : Nat × UInt8 × Bytes :=
  let header := FcgiHeader.cast b
  (header.requestId, header.type, (b.drop fcgiHeaderLen).take header.contentLength)

/-- Nothing complete is left: not even a header, or a version-1 header whose
record has not come completely. -/
def Settled (b : Bytes) : Prop :=
  b.length < fcgiHeaderLen ∨
    (FcgiHeader.cast b).version = fcgiVersion1 ∧
      b.length < (FcgiHeader.cast b).recordLength

/-- The loop of `handleRead` passes on these packets and leaves these bytes. -/
inductive Reads : Bytes → List (Nat × UInt8 × Bytes) → Bytes → Prop
  | drained {b : Bytes} : b.length < fcgiHeaderLen → Reads b [] b
  | unsupported {b rest : Bytes} {ps : List (Nat × UInt8 × Bytes)} :
      fcgiHeaderLen ≤ b.length →
      (FcgiHeader.cast b).version ≠ fcgiVersion1 →
      Reads (b.drop (FcgiHeader.cast b).recordLength) ps rest → Reads b ps rest
  | incomplete {b : Bytes} : fcgiHeaderLen ≤ b.length →
      (FcgiHeader.cast b).version = fcgiVersion1 →
      b.length < (FcgiHeader.cast b).recordLength → Reads b [] b
  | packet {b rest : Bytes} {ps : List (Nat × UInt8 × Bytes)} :
      (FcgiHeader.cast b).version = fcgiVersion1 →
      (FcgiHeader.cast b).recordLength ≤ b.length →
      Reads (b.drop (FcgiHeader.cast b).recordLength) ps rest → Reads b (packetAt b :: ps) rest

/-- A header is read off the first eight bytes. -/
theorem FcgiHeader.cast_append {b : Bytes} (h : fcgiHeaderLen ≤ b.length) (c : Bytes) :
    FcgiHeader.cast (b ++ c) = FcgiHeader.cast b := by
  have hget : ∀ i, i < 8 → (b ++ c).getD i 0 = b.getD i 0 := fun i hi => by
    have hlt : i < b.length := Nat.lt_of_lt_of_le hi h
    rw [List.getD_append _ _ _ _ hlt]
  simp only [FcgiHeader.cast, hget, Nat.reduceLT]

/-- A buffer that holds a record holds its header. -/
theorem header_le_of_record_le {b : Bytes} (h : (FcgiHeader.cast b).recordLength ≤ b.length) :
    fcgiHeaderLen ≤ b.length :=
  Nat.le_trans (FcgiHeader.cast b).eight_le_recordLength h

/-- The record at the head of a buffer is not changed by what comes behind it. -/
theorem packetAt_append {b : Bytes} (h : (FcgiHeader.cast b).recordLength ≤ b.length)
    (c : Bytes) : packetAt (b ++ c) = packetAt b := by
  have hlen := header_le_of_record_le h
  have hcontent : (FcgiHeader.cast b).contentLength ≤ (b.drop fcgiHeaderLen).length := by
    rw [FcgiHeader.recordLength] at h
    rw [List.length_drop]
    omega
  rw [packetAt, packetAt, FcgiHeader.cast_append hlen, List.drop_append_of_le_length hlen,
    List.take_append_of_le_length hcontent]

namespace Reads

variable {b c rest rest' : Bytes} {ps ps' : List (Nat × UInt8 × Bytes)}

/-- What is read of a buffer is determined by the buffer. -/
theorem unique (h : Reads b ps rest) (h' : Reads b ps' rest') : ps = ps' ∧ rest = rest' := by
  induction h generalizing ps' with
  | drained hlt =>
      cases h' with
      | drained => exact ⟨rfl, rfl⟩
      | unsupported hle => omega
      | incomplete => exact ⟨rfl, rfl⟩
      | packet _ hle =>
          have hheader := header_le_of_record_le hle
          omega
  | unsupported hle hv _ ih =>
      cases h' with
      | drained hlt => omega
      | unsupported _ _ h' => exact ih h'
      | incomplete _ hv' => exact absurd hv' hv
      | packet hv' => exact absurd hv' hv
  | incomplete hle hv hlt =>
      cases h' with
      | drained => exact ⟨rfl, rfl⟩
      | unsupported _ hv' => exact absurd hv hv'
      | incomplete => exact ⟨rfl, rfl⟩
      | packet _ hle' => omega
  | packet hv hle _ ih =>
      cases h' with
      | drained hlt =>
          have hheader := header_le_of_record_le hle
          omega
      | unsupported _ hv' => exact absurd hv hv'
      | incomplete _ _ hlt => omega
      | packet _ _ h' =>
          obtain ⟨rfl, rfl⟩ := ih h'
          exact ⟨rfl, rfl⟩

/-- Reading stops where there is nothing more to read. -/
theorem rest_settled (h : Reads b ps rest) : Reads rest [] rest := by
  induction h with
  | drained hlt => exact .drained hlt
  | unsupported _ _ _ ih => exact ih
  | incomplete hle hv hlt => exact .incomplete hle hv hlt
  | packet _ _ _ ih => exact ih

/-- Every buffer can be read. -/
theorem total (b : Bytes) : ∃ ps rest, Reads b ps rest := by
  induction hn : b.length using Nat.strong_induction_on generalizing b with
  | _ n ih =>
      subst hn
      by_cases hlen : b.length < fcgiHeaderLen
      · exact ⟨[], b, .drained hlen⟩
      rw [Nat.not_lt] at hlen
      obtain ⟨ps, rest, hrest⟩ := ih _ (FcgiHeader.length_drop_lt _ hlen) _ rfl
      by_cases hv : (FcgiHeader.cast b).version = fcgiVersion1
      · by_cases hle : (FcgiHeader.cast b).recordLength ≤ b.length
        · exact ⟨_, rest, .packet hv hle hrest⟩
        · exact ⟨[], b, .incomplete hlen hv (Nat.not_le.mp hle)⟩
      · exact ⟨ps, rest, .unsupported hlen hv hrest⟩

end Reads

/-- Reading chunk by chunk: what one chunk leaves stands before the next. -/
inductive ReadsChunks : Bytes → List Bytes → List (Nat × UInt8 × Bytes) → Bytes → Prop
  | nil {b : Bytes} : ReadsChunks b [] [] b
  | cons {b chunk rest rest' : Bytes} {chunks : List Bytes}
      {ps ps' : List (Nat × UInt8 × Bytes)} :
      Reads (b ++ chunk) ps rest → ReadsChunks rest chunks ps' rest' →
      ReadsChunks b (chunk :: chunks) (ps ++ ps') rest'

/-! ## The loop of `handleRead` -/

namespace PacketSocket.Owner

variable {σ : Type} {o : Owner σ}

/-- A run on the noting owner that noted `ps` and left the socket open with
`rest` in its buffer. -/
def Leaves (o : Owner σ) {α : Type} (a : α) (noted ps : List (Nat × UInt8 × Bytes))
    (rest : Bytes) (out : Outcome Event (σ × List (Nat × UInt8 × Bytes)) α) : Prop :=
  out.exit = .ret a ∧ out.state.2 = noted ++ ps ∧ (o.socket out.state.1).state ≠ .closed ∧
    (o.socket out.state.1).inputBuffer = rest

theorem consume_traced (hset : ∀ p s, o.socket (o.setSocket p s) = p) (n : Nat) (s : σ)
    (ps : List (Nat × UInt8 × Bytes)) :
    ∃ s', o.traced.consume n (s, ps) = ⟨.ret (), (s', ps), []⟩ ∧
      (o.socket s').state = (o.socket s).state ∧
      (o.socket s').inputBuffer = (o.socket s).inputBuffer.drop n := by
  refine ⟨_, rfl, ?_, ?_⟩
  · rw [hset]
    rfl
  · rw [hset]
    rfl

/-- A record in a buffer, as one pass of the loop passes it on: the callback
returns or throws, and either way the record is consumed.  The loop goes on
unless the callback returned and the socket is closed. -/
theorem nextPacket_record (hset : ∀ p s, o.socket (o.setSocket p s) = p) {s : σ}
    (noted : List (Nat × UInt8 × Bytes))
    (hv : (FcgiHeader.cast (o.socket s).inputBuffer).version = fcgiVersion1)
    (hle : (FcgiHeader.cast (o.socket s).inputBuffer).recordLength ≤
      (o.socket s).inputBuffer.length) {p : Nat × UInt8 × Bytes}
    (hpacket : packetAt (o.socket s).inputBuffer = p)
    (hlive : ∀ w, (o.newPacketCallback false p.1 p.2.1 p.2.2 s).exit ≠ .abort w)
    (hbuffer : (o.socket (o.newPacketCallback false p.1 p.2.1 p.2.2 s).state).inputBuffer =
      (o.socket s).inputBuffer) :
    ∃ again s' es,
      o.traced.nextPacket (s, noted) = ⟨.ret again, (s', noted ++ [p]), es⟩ ∧
      (again = false → (o.socket s').state = .closed) ∧
      (o.socket s').state = (o.socket (o.newPacketCallback false p.1 p.2.1 p.2.2 s).state).state ∧
      (o.socket s').inputBuffer =
        (o.socket s).inputBuffer.drop (FcgiHeader.cast (o.socket s).inputBuffer).recordLength := by
  have hheader : ¬ (o.socket s).inputBuffer.length < fcgiHeaderLen :=
    Nat.not_lt.mpr (header_le_of_record_le hle)
  have hsocket : ∀ t, o.traced.socket t = o.socket t.1 := fun _ => rfl
  obtain ⟨r, t, content⟩ := p
  simp only [packetAt, Prod.mk.injEq] at hpacket
  obtain ⟨hr, ht, hcontent⟩ := hpacket
  simp only [nextPacket, Act.get_bind_run, hsocket, if_neg hheader, hv, ne_eq, not_true_eq_false,
    if_false, if_neg (Nat.not_lt.mpr hle), hr, ht, hcontent]
  generalize FcgiHeader.cast (o.socket s).inputBuffer = h
  -- the callback's own run decides between the two ways to consume the record
  cases hout : o.newPacketCallback false r t content s with
  | mk exit s₁ es =>
      rw [hout] at hlive hbuffer
      have hnoted : o.traced.newPacketCallback false r t content (s, noted) =
          ⟨exit, (s₁, noted ++ [(r, t, content)]), es⟩ := by
        simp only [traced, hout]
      obtain ⟨s₂, hconsume, hstate, hinput⟩ :=
        consume_traced hset h.recordLength s₁ (noted ++ [(r, t, content)])
      rw [hbuffer] at hinput
      cases exit with
      | ret u =>
          refine ⟨decide ((o.socket s₂).state ≠ .closed), s₂, es,
            ?_, by simp, hstate, hinput⟩
          rw [Act.tryCatch_of_ret]
          rw [Act.bind_of_ret hnoted, Act.bind_of_ret hconsume]
          simp
      | throw w =>
          refine ⟨true, s₂, es, ?_, by simp, hstate, hinput⟩
          rw [Act.tryCatch_of_throw (Act.bind_of_throw hnoted), Act.bind_of_ret hconsume]
          simp
      | abort w => exact absurd rfl (hlive w)

/-- With a callback that keeps the socket open the loop goes on. -/
theorem nextPacket_packet (ho : o.KeepsOpen) {s : σ} {noted : List (Nat × UInt8 × Bytes)}
    (hs : (o.socket s).state ≠ .closed)
    (hv : (FcgiHeader.cast (o.socket s).inputBuffer).version = fcgiVersion1)
    (hle : (FcgiHeader.cast (o.socket s).inputBuffer).recordLength ≤
      (o.socket s).inputBuffer.length) :
    o.Leaves true noted [packetAt (o.socket s).inputBuffer]
      ((o.socket s).inputBuffer.drop (FcgiHeader.cast (o.socket s).inputBuffer).recordLength)
      (o.traced.nextPacket (s, noted)) := by
  obtain ⟨again, s', es, hrun, hagain, hstate, hinput⟩ :=
    nextPacket_record ho.socket_setSocket noted hv hle rfl
      (fun w => ho.exit_ne_abort _ _ _ s w hs) (ho.inputBuffer_eq _ _ _ s hs)
  have hopen : (o.socket s').state ≠ .closed := by
    rw [hstate]
    exact ho.state_ne_closed _ _ _ s hs
  rw [hrun]
  refine ⟨?_, rfl, hopen, hinput⟩
  cases again with
  | true => rfl
  | false => exact absurd (hagain rfl) hopen

/-- A record of another version is skipped, as far as it has come. -/
theorem nextPacket_skip (hset : ∀ p s, o.socket (o.setSocket p s) = p) {s : σ}
    (noted : List (Nat × UInt8 × Bytes))
    (hlen : fcgiHeaderLen ≤ (o.socket s).inputBuffer.length)
    (hv : (FcgiHeader.cast (o.socket s).inputBuffer).version ≠ fcgiVersion1) :
    ∃ s', o.traced.nextPacket (s, noted) = ⟨.ret true, (s', noted), []⟩ ∧
      (o.socket s').state = (o.socket s).state ∧
      (o.socket s').inputBuffer =
        (o.socket s).inputBuffer.drop (FcgiHeader.cast (o.socket s).inputBuffer).recordLength := by
  have hsocket : ∀ t, o.traced.socket t = o.socket t.1 := fun _ => rfl
  obtain ⟨s', hconsume, hstate, hinput⟩ :=
    consume_traced hset (FcgiHeader.cast (o.socket s).inputBuffer).recordLength s noted
  refine ⟨s', ?_, hstate, hinput⟩
  simp only [nextPacket, Act.get_bind_run, hsocket, if_neg (Nat.not_lt.mpr hlen), hv, ne_eq,
    not_false_eq_true, if_true]
  rw [Act.tryCatch_of_throw (Act.throw_run _ _), Act.bind_of_ret hconsume]
  rfl

theorem nextPacket_unsupported (ho : o.KeepsOpen) {s : σ} {noted : List (Nat × UInt8 × Bytes)}
    (hs : (o.socket s).state ≠ .closed) (hlen : fcgiHeaderLen ≤ (o.socket s).inputBuffer.length)
    (hv : (FcgiHeader.cast (o.socket s).inputBuffer).version ≠ fcgiVersion1) :
    o.Leaves true noted []
      ((o.socket s).inputBuffer.drop (FcgiHeader.cast (o.socket s).inputBuffer).recordLength)
      (o.traced.nextPacket (s, noted)) := by
  obtain ⟨s', hrun, hstate, hinput⟩ := nextPacket_skip ho.socket_setSocket noted hlen hv
  rw [hrun]
  exact ⟨rfl, (List.append_nil _).symm, by rwa [hstate], hinput⟩

/-- A buffer with nothing more to read ends the loop. -/
theorem nextPacket_settled {s : σ} {noted : List (Nat × UInt8 × Bytes)}
    (h : Settled (o.socket s).inputBuffer) :
    o.traced.nextPacket (s, noted) = ⟨.ret false, (s, noted), []⟩ := by
  have hsocket : ∀ t, o.traced.socket t = o.socket t.1 := fun _ => rfl
  simp only [nextPacket, Act.get_bind_run, hsocket]
  obtain hlt | ⟨hv, hlt⟩ := h
  · rw [if_pos hlt]
    rfl
  · by_cases hlen : (o.socket s).inputBuffer.length < fcgiHeaderLen
    · rw [if_pos hlen]
      rfl
    · simp only [if_neg hlen, hv, ne_eq, not_true_eq_false, if_false, if_pos hlt]
      exact Act.tryCatch_of_ret (Act.pure_run _ _)

/-- A buffer with nothing more to read stays as it is. -/
theorem readLoop_settled {fuel : Nat} {s : σ} {noted : List (Nat × UInt8 × Bytes)}
    (hs : (o.socket s).state ≠ .closed) (h : Settled (o.socket s).inputBuffer) :
    o.Leaves () noted [] (o.socket s).inputBuffer (o.traced.readLoop (fuel + 1) (s, noted)) := by
  rw [readLoop, Act.bind_of_ret (nextPacket_settled h)]
  exact ⟨rfl, by simp, hs, rfl⟩

/-- A pass that goes on, followed by the rest of the loop. -/
theorem Leaves.readLoop {fuel : Nat} {s : σ} {noted ps ps' : List (Nat × UInt8 × Bytes)}
    {b rest : Bytes} (h : o.Leaves true noted ps b (o.traced.nextPacket (s, noted)))
    (hrest : ∀ s', (o.socket s').state ≠ .closed → (o.socket s').inputBuffer = b →
      o.Leaves () (noted ++ ps) ps' rest (o.traced.readLoop fuel (s', noted ++ ps))) :
    o.Leaves () noted (ps ++ ps') rest (o.traced.readLoop (fuel + 1) (s, noted)) := by
  rw [Owner.readLoop]
  cases hout : o.traced.nextPacket (s, noted) with
  | mk exit t es =>
      obtain ⟨s', noted'⟩ := t
      rw [hout] at h
      obtain ⟨hexit, hnoted, hopen, hinput⟩ := h
      have hexit : exit = .ret true := hexit
      have hnoted : noted' = noted ++ ps := hnoted
      subst hexit hnoted
      obtain ⟨hexit', hnoted', hopen', hinput'⟩ := hrest s' hopen hinput
      rw [Act.bind_of_ret hout, Act.when_true]
      exact ⟨hexit', by rw [← List.append_assoc]; exact hnoted', hopen', hinput'⟩

/-- **The loop of `handleRead`** passes on and leaves what `Reads` says. -/
theorem readLoop_reads (ho : o.KeepsOpen) {b rest : Bytes} {ps : List (Nat × UInt8 × Bytes)}
    (h : Reads b ps rest) {fuel : Nat} {s : σ} (noted : List (Nat × UInt8 × Bytes))
    (hb : (o.socket s).inputBuffer = b) (hs : (o.socket s).state ≠ .closed)
    (hfuel : b.length < fuel) : o.Leaves () noted ps rest (o.traced.readLoop fuel (s, noted)) := by
  induction h generalizing fuel s noted with
  | drained hlt =>
      subst hb
      obtain ⟨fuel, rfl⟩ := Nat.exists_eq_add_one_of_ne_zero (Nat.ne_zero_of_lt hfuel)
      exact readLoop_settled hs (.inl hlt)
  | incomplete hlen hv hlt =>
      subst hb
      obtain ⟨fuel, rfl⟩ := Nat.exists_eq_add_one_of_ne_zero (Nat.ne_zero_of_lt hfuel)
      exact readLoop_settled hs (.inr ⟨hv, hlt⟩)
  | unsupported hlen hv _ ih =>
      subst hb
      obtain ⟨fuel, rfl⟩ := Nat.exists_eq_add_one_of_ne_zero (Nat.ne_zero_of_lt hfuel)
      have hshort := (FcgiHeader.cast (o.socket s).inputBuffer).length_drop_lt hlen
      exact (nextPacket_unsupported ho hs hlen hv).readLoop fun s' hs' hb' =>
        ih _ hb' hs' (by omega)
  | packet hv hle _ ih =>
      subst hb
      obtain ⟨fuel, rfl⟩ := Nat.exists_eq_add_one_of_ne_zero (Nat.ne_zero_of_lt hfuel)
      have hshort := (FcgiHeader.cast (o.socket s).inputBuffer).length_drop_lt
        (header_le_of_record_le hle)
      exact (nextPacket_packet ho hs hv hle).readLoop fun s' hs' hb' => ih _ hb' hs' (by omega)

/-- On an open socket the bytes of a read go behind what is buffered, and the
loop is entered. -/
theorem enterHandleRead_open (hset : ∀ p s, o.socket (o.setSocket p s) = p) {s : σ}
    (noted : List (Nat × UInt8 × Bytes)) (hs : (o.socket s).state ≠ .closed) (chunk : Bytes) :
    ∃ s', o.traced.enterHandleRead false chunk (s, noted) = ⟨.ret true, (s', noted), []⟩ ∧
      (o.socket s').state = (o.socket s).state ∧
      (o.socket s').inputBuffer = (o.socket s).inputBuffer ++ chunk := by
  let received : PacketSocket := { o.socket s with
    inputBuffer := (o.socket s).inputBuffer ++ chunk
    pendingReads := (o.socket s).pendingReads - 1 }
  have hsocket : o.traced.socket (o.setSocket received s, noted) = received := hset received s
  have hcommit : o.traced.onSocket (Act.modify fun s => { s with
      inputBuffer := s.inputBuffer ++ chunk, pendingReads := s.pendingReads - 1 }) (s, noted) =
      ⟨.ret (), (o.setSocket received s, noted), []⟩ := rfl
  refine ⟨o.setSocket received s, ?_, ?_, ?_⟩
  · rw [enterHandleRead, Act.bind_of_ret hcommit]
    simp only [Act.get_bind_run, hsocket, if_neg hs, Bool.false_eq_true, if_false, received]
    rfl
  · rw [hset]
  · rw [hset]

/-- A `handleRead` that enters the loop runs it on what is buffered then. -/
theorem handleRead_entered {s s' : σ} {noted : List (Nat × UInt8 × Bytes)} {chunk : Bytes}
    (h : o.traced.enterHandleRead false chunk (s, noted) = ⟨.ret true, (s', noted), []⟩) :
    o.traced.handleRead false chunk (s, noted) =
      o.traced.readLoop ((o.socket s').inputBuffer.length + 1) (s', noted) := by
  have hsocket : ∀ t, o.traced.socket t = o.socket t.1 := fun _ => rfl
  rw [handleRead, Act.bind_of_ret h]
  simp only [Act.get_bind_run, hsocket, Act.when_true]
  rfl

/-- One `handleRead` on an open socket. -/
theorem handleRead_reads (ho : o.KeepsOpen) {s : σ} {chunk rest : Bytes}
    {ps : List (Nat × UInt8 × Bytes)} (noted : List (Nat × UInt8 × Bytes))
    (hs : (o.socket s).state ≠ .closed)
    (h : Reads ((o.socket s).inputBuffer ++ chunk) ps rest) :
    o.Leaves () noted ps rest (o.traced.handleRead false chunk (s, noted)) := by
  obtain ⟨s', henter, hstate, hinput⟩ := enterHandleRead_open ho.socket_setSocket noted hs chunk
  rw [← hstate] at hs
  rw [handleRead_entered henter, hinput]
  exact readLoop_reads ho h noted hinput hs (Nat.lt_succ_self _)

/-- **Chunk by chunk**: the run of `feed` is `ReadsChunks`. -/
theorem feed_reads (ho : o.KeepsOpen) {chunks : List Bytes} {s : σ} {rest : Bytes}
    {ps : List (Nat × UInt8 × Bytes)} (noted : List (Nat × UInt8 × Bytes))
    (hs : (o.socket s).state ≠ .closed)
    (h : ReadsChunks (o.socket s).inputBuffer chunks ps rest) :
    o.Leaves () noted ps rest (o.traced.feed chunks (s, noted)) := by
  generalize hb : (o.socket s).inputBuffer = b at h
  induction h generalizing s noted with
  | nil => exact ⟨rfl, by simp [feed], hs, hb⟩
  | @cons b chunk mid rest chunks ps ps' hread _ ih =>
      subst hb
      have hfirst := handleRead_reads ho noted hs hread
      cases hout : o.traced.handleRead false chunk (s, noted) with
      | mk exit t es =>
          obtain ⟨s', noted'⟩ := t
          rw [hout] at hfirst
          obtain ⟨hexit, hnoted, hopen, hinput⟩ := hfirst
          have hexit : exit = .ret () := hexit
          have hnoted : noted' = noted ++ ps := hnoted
          subst hexit hnoted
          obtain ⟨hexit', hnoted', hopen', hinput'⟩ := ih (noted ++ ps) hopen hinput
          rw [feed, Act.bind_of_ret hout]
          exact ⟨hexit', by rw [← List.append_assoc]; exact hnoted', hopen', hinput'⟩

end PacketSocket.Owner

/-! ## Where a cut shows -/

/-- Whenever the reader meets a record of an unsupported version in this
string, the record is no longer than its header, or the string ends with the
header: no cut falls into a record that is being skipped. -/
inductive SkipsHeadersOnly : Bytes → Prop
  | drained {b : Bytes} : b.length < fcgiHeaderLen → SkipsHeadersOnly b
  | bare {b : Bytes} : fcgiHeaderLen ≤ b.length →
      (FcgiHeader.cast b).version ≠ fcgiVersion1 →
      (FcgiHeader.cast b).recordLength = fcgiHeaderLen →
      SkipsHeadersOnly (b.drop fcgiHeaderLen) →
      SkipsHeadersOnly b
  | last {b : Bytes} : b.length = fcgiHeaderLen → (FcgiHeader.cast b).version ≠ fcgiVersion1 →
      SkipsHeadersOnly b
  | incomplete {b : Bytes} : (FcgiHeader.cast b).version = fcgiVersion1 →
      b.length < (FcgiHeader.cast b).recordLength → SkipsHeadersOnly b
  | packet {b : Bytes} : (FcgiHeader.cast b).version = fcgiVersion1 →
      (FcgiHeader.cast b).recordLength ≤ b.length →
      SkipsHeadersOnly (b.drop (FcgiHeader.cast b).recordLength) → SkipsHeadersOnly b

namespace SkipsHeadersOnly

/-- A beginning of such a string is one. -/
theorem of_append {b c : Bytes} (h : SkipsHeadersOnly (b ++ c)) : SkipsHeadersOnly b := by
  generalize hx : b ++ c = x at h
  induction h generalizing b with
  | drained hlt =>
      subst hx
      rw [List.length_append] at hlt
      exact .drained (by omega)
  | bare hle hv hrec _ ih =>
      subst hx
      by_cases hlen : b.length < fcgiHeaderLen
      · exact .drained hlen
      rw [Nat.not_lt] at hlen
      rw [FcgiHeader.cast_append hlen] at hv hrec
      exact .bare hlen hv hrec (ih (List.drop_append_of_le_length hlen).symm)
  | last hlast hv =>
      subst hx
      by_cases hlen : b.length < fcgiHeaderLen
      · exact .drained hlen
      rw [Nat.not_lt] at hlen
      rw [FcgiHeader.cast_append hlen] at hv
      rw [List.length_append] at hlast
      exact .last (by omega) hv
  | incomplete hv hlt =>
      subst hx
      by_cases hlen : b.length < fcgiHeaderLen
      · exact .drained hlen
      rw [Nat.not_lt] at hlen
      rw [FcgiHeader.cast_append hlen] at hv hlt
      rw [List.length_append] at hlt
      exact .incomplete hv (by omega)
  | packet hv hle _ ih =>
      subst hx
      by_cases hlen : b.length < fcgiHeaderLen
      · exact .drained hlen
      rw [Nat.not_lt] at hlen
      rw [FcgiHeader.cast_append hlen] at hv hle ih
      by_cases hrec : (FcgiHeader.cast b).recordLength ≤ b.length
      · exact .packet hv hrec (ih (List.drop_append_of_le_length hrec).symm)
      · exact .incomplete hv (Nat.not_le.mp hrec)

/-- Skipping takes the same bytes off such a string whether the end has come or not. -/
theorem drop_append {b c : Bytes} (h : SkipsHeadersOnly (b ++ c))
    (hlen : fcgiHeaderLen ≤ b.length) (hv : (FcgiHeader.cast b).version ≠ fcgiVersion1) :
    (b ++ c).drop (FcgiHeader.cast b).recordLength =
        b.drop (FcgiHeader.cast b).recordLength ++ c ∧
      SkipsHeadersOnly (b.drop (FcgiHeader.cast b).recordLength ++ c) := by
  have h8 := (FcgiHeader.cast b).eight_le_recordLength
  have hcast := FcgiHeader.cast_append hlen c
  cases h with
  | drained hlt =>
      rw [List.length_append] at hlt
      omega
  | bare _ _ hrec hrest =>
      rw [hcast] at hrec
      rw [hrec, ← List.drop_append_of_le_length hlen]
      exact ⟨rfl, hrest⟩
  | last hlast _ =>
      rw [List.length_append] at hlast
      have hc : c = [] := List.eq_nil_of_length_eq_zero (by omega)
      subst hc
      rw [fcgiHeaderLen] at hlen hlast
      rw [List.append_nil, List.append_nil, List.drop_eq_nil_of_le (by omega)]
      exact ⟨rfl, .drained (by decide)⟩
  | incomplete hv' =>
      rw [hcast] at hv'
      exact absurd hv' hv
  | packet hv' =>
      rw [hcast] at hv'
      exact absurd hv' hv

/-- What comes behind a packet is such a string again. -/
theorem drop_record {b : Bytes} (h : SkipsHeadersOnly b)
    (hv : (FcgiHeader.cast b).version = fcgiVersion1) :
    SkipsHeadersOnly (b.drop (FcgiHeader.cast b).recordLength) := by
  have h8 := (FcgiHeader.cast b).eight_le_recordLength
  have hshort : b.length < (FcgiHeader.cast b).recordLength →
      SkipsHeadersOnly (b.drop (FcgiHeader.cast b).recordLength) := fun hlt => by
    rw [List.drop_eq_nil_of_le (Nat.le_of_lt hlt)]
    exact .drained (by decide)
  cases h with
  | drained hlt => exact hshort (Nat.lt_of_lt_of_le hlt h8)
  | bare _ hv' => exact absurd hv hv'
  | last _ hv' => exact absurd hv hv'
  | incomplete _ hlt => exact hshort hlt
  | packet _ _ hrest => exact hrest

end SkipsHeadersOnly

/-- Reading a string in two pieces: what the first leaves is read before the second. -/
theorem Reads.append {b c rest rest' : Bytes} {ps ps' : List (Nat × UInt8 × Bytes)}
    (h : Reads b ps rest) (hskips : SkipsHeadersOnly (b ++ c)) :
    SkipsHeadersOnly (rest ++ c) ∧
      (Reads (rest ++ c) ps' rest' → Reads (b ++ c) (ps ++ ps') rest') := by
  induction h with
  | drained => exact ⟨hskips, id⟩
  | incomplete => exact ⟨hskips, id⟩
  | unsupported hlen hv _ ih =>
      obtain ⟨hdrop, hrest⟩ := hskips.drop_append hlen hv
      obtain ⟨hskips', hread⟩ := ih hrest
      refine ⟨hskips', fun h' => .unsupported ?_ ?_ ?_⟩
      · rw [List.length_append]
        omega
      · rwa [FcgiHeader.cast_append hlen]
      · rw [FcgiHeader.cast_append hlen, hdrop]
        exact hread h'
  | @packet b _ _ hv hle _ ih =>
      have hlen := header_le_of_record_le hle
      have hcast := FcgiHeader.cast_append hlen c
      have hdrop : (b ++ c).drop (FcgiHeader.cast b).recordLength =
          b.drop (FcgiHeader.cast b).recordLength ++ c := List.drop_append_of_le_length hle
      have hrest : SkipsHeadersOnly (b.drop (FcgiHeader.cast b).recordLength ++ c) := by
        rw [← hdrop, ← hcast]
        rw [← hcast] at hv
        exact hskips.drop_record hv
      obtain ⟨hskips', hread⟩ := ih hrest
      refine ⟨hskips', fun h' => ?_⟩
      rw [List.cons_append, ← packetAt_append hle c]
      refine .packet ?_ ?_ ?_
      · rwa [hcast]
      · rw [hcast, List.length_append]
        omega
      · rw [hcast, hdrop]
        exact hread h'

/-- Cuts do not show in a string without a record that is skipped in pieces. -/
theorem ReadsChunks.reads {b rest : Bytes} {chunks : List Bytes}
    {ps : List (Nat × UInt8 × Bytes)} (h : ReadsChunks b chunks ps rest) (hb : Reads b [] b)
    (hskips : SkipsHeadersOnly (b ++ chunks.flatten)) : Reads (b ++ chunks.flatten) ps rest := by
  induction h with
  | nil => simpa using hb
  | cons hread _ ih =>
      rw [List.flatten_cons, ← List.append_assoc] at hskips ⊢
      obtain ⟨hskips', happend⟩ := hread.append hskips
      exact happend (ih hread.rest_settled hskips')

/-- Every sequence of chunks can be read. -/
theorem ReadsChunks.total (b : Bytes) (chunks : List Bytes) :
    ∃ ps rest, ReadsChunks b chunks ps rest := by
  induction chunks generalizing b with
  | nil => exact ⟨[], b, .nil⟩
  | cons chunk chunks ih =>
      obtain ⟨ps, mid, hread⟩ := Reads.total (b ++ chunk)
      obtain ⟨ps', rest, hrest⟩ := ih mid
      exact ⟨ps ++ ps', rest, .cons hread hrest⟩

/-- A whole record is passed on before what comes behind it. -/
theorem Reads.record_append {rec b rest : Bytes} {ps : List (Nat × UInt8 × Bytes)}
    (hrec : (FcgiHeader.cast rec).recordLength = rec.length)
    (hv : (FcgiHeader.cast rec).version = fcgiVersion1) (h : Reads b ps rest) :
    Reads (rec ++ b) (packetAt rec :: ps) rest := by
  have hlen := header_le_of_record_le hrec.le
  have hcast := FcgiHeader.cast_append hlen b
  rw [← packetAt_append hrec.le b]
  refine .packet ?_ ?_ ?_
  · rwa [hcast]
  · rw [hcast, hrec, List.length_append]
    omega
  · rw [hcast, hrec, List.drop_left]
    exact h

theorem SkipsHeadersOnly.record_append {rec b : Bytes}
    (hrec : (FcgiHeader.cast rec).recordLength = rec.length)
    (hv : (FcgiHeader.cast rec).version = fcgiVersion1) (h : SkipsHeadersOnly b) :
    SkipsHeadersOnly (rec ++ b) := by
  have hcast := FcgiHeader.cast_append (header_le_of_record_le hrec.le) b
  refine .packet ?_ ?_ ?_
  · rwa [hcast]
  · rw [hcast, hrec, List.length_append]
    omega
  · rw [hcast, hrec, List.drop_left]
    exact h

/-- A record as a peer may send it is one whole record. -/
theorem WireRecord.whole (rec : WireRecord) :
    (FcgiHeader.cast rec.toBytes).recordLength = rec.toBytes.length ∧
      (FcgiHeader.cast rec.toBytes).version = fcgiVersion1 ∧
      packetAt rec.toBytes = (rec.requestId, rec.type, rec.content) := by
  have hcast : FcgiHeader.cast rec.toBytes = rec.header := FcgiHeader.cast_toBytes_append _ _
  refine ⟨?_, ?_, ?_⟩
  · rw [hcast, rec.length_toBytes]
  · rw [hcast]
    rfl
  · rw [packetAt, hcast, rec.requestId_header, rec.contentLength_header, WireRecord.toBytes,
      fcgiHeaderLen, drop_append_of_length (FcgiHeader.length_toBytes _), take_append_of_length rfl]
    rfl

theorem Reads.wireRecord (rec : WireRecord) {b rest : Bytes} {ps : List (Nat × UInt8 × Bytes)}
    (h : Reads b ps rest) :
    Reads (rec.toBytes ++ b) ((rec.requestId, rec.type, rec.content) :: ps) rest := by
  obtain ⟨hrec, hv, hpacket⟩ := rec.whole
  rw [← hpacket]
  exact h.record_append hrec hv

/-- A whole record of another version is skipped. -/
theorem Reads.unsupported_append {rec b rest : Bytes} {ps : List (Nat × UInt8 × Bytes)}
    (hrec : (FcgiHeader.cast rec).recordLength = rec.length)
    (hv : (FcgiHeader.cast rec).version ≠ fcgiVersion1) (h : Reads b ps rest) :
    Reads (rec ++ b) ps rest := by
  have hlen := header_le_of_record_le hrec.le
  have hcast := FcgiHeader.cast_append hlen b
  refine .unsupported ?_ ?_ ?_
  · rw [List.length_append]
    omega
  · rwa [hcast]
  · rw [hcast, hrec, List.drop_left]
    exact h

/-- Of a record of another version that has not come whole nothing is left. -/
theorem Reads.skipped {b : Bytes} (hlen : fcgiHeaderLen ≤ b.length)
    (hv : (FcgiHeader.cast b).version ≠ fcgiVersion1)
    (hle : b.length ≤ (FcgiHeader.cast b).recordLength) : Reads b [] [] := by
  refine .unsupported hlen hv ?_
  rw [List.drop_eq_nil_of_le hle]
  exact .drained (by decide)

theorem FcgiHeader.cast_take {b : Bytes} {n : Nat} (hn : fcgiHeaderLen ≤ n)
    (hlen : fcgiHeaderLen ≤ b.length) : FcgiHeader.cast (b.take n) = FcgiHeader.cast b := by
  have hle : fcgiHeaderLen ≤ (b.take n).length := by
    rw [List.length_take]
    omega
  have hcast := FcgiHeader.cast_append hle (b.drop n)
  rw [List.take_append_drop] at hcast
  exact hcast.symm

/-- A string with a beginning that leaves nothing, with and without its last
byte. -/
def HasCut (b : Bytes) : Prop :=
  ∃ pre x ps, pre ++ [x] <+: b ∧ pre ≠ [] ∧ Reads pre ps [] ∧ Reads (pre ++ [x]) ps []

/-- A whole record, of either version, in front of the cut stays in front of
it. -/
theorem HasCut.record_append {rec b : Bytes}
    (hrec : (FcgiHeader.cast rec).recordLength = rec.length) (h : HasCut b) :
    HasCut (rec ++ b) := by
  obtain ⟨pre, x, ps, hpre, hne, hread, hread'⟩ := h
  have hprefix : rec ++ pre ++ [x] <+: rec ++ b := by
    rw [List.append_assoc]
    exact (List.prefix_append_right_inj rec).mpr hpre
  have hne' : rec ++ pre ≠ [] := fun hnil => hne (List.append_eq_nil_iff.mp hnil).2
  by_cases hv : (FcgiHeader.cast rec).version = fcgiVersion1
  · refine ⟨_, x, _, hprefix, hne', hread.record_append hrec hv, ?_⟩
    rw [List.append_assoc]
    exact hread'.record_append hrec hv
  · refine ⟨_, x, _, hprefix, hne', hread.unsupported_append hrec hv, ?_⟩
    rw [List.append_assoc]
    exact hread'.unsupported_append hrec hv

theorem HasCut.of_drop {b : Bytes} (hlen : fcgiHeaderLen ≤ b.length)
    (hle : (FcgiHeader.cast b).recordLength ≤ b.length)
    (h : HasCut (b.drop (FcgiHeader.cast b).recordLength)) : HasCut b := by
  have htake := FcgiHeader.cast_take (FcgiHeader.cast b).eight_le_recordLength hlen
  have hrec : (FcgiHeader.cast (b.take (FcgiHeader.cast b).recordLength)).recordLength =
      (b.take (FcgiHeader.cast b).recordLength).length := by
    rw [htake, List.length_take, Nat.min_eq_left hle]
  have happend := h.record_append hrec
  rwa [List.take_append_drop] at happend

/-- Of a record of another version nothing is left, wherever behind its header
it is cut. -/
theorem Reads.skipped_take {b : Bytes} {n : Nat} (hlen : fcgiHeaderLen ≤ b.length)
    (hv : (FcgiHeader.cast b).version ≠ fcgiVersion1) (hn : fcgiHeaderLen ≤ n)
    (hle : n ≤ b.length) (hle' : n ≤ (FcgiHeader.cast b).recordLength) :
    Reads (b.take n) [] [] := by
  have htake := FcgiHeader.cast_take hn hlen
  have hlength : (b.take n).length = n := by rw [List.length_take, Nat.min_eq_left hle]
  refine .skipped (by omega) (by rwa [htake]) ?_
  rw [htake]
  omega

/-- Where a record of another version has content, and some of it is there, the
cut is right behind the header. -/
theorem HasCut.behind_header {b : Bytes} (hlen : fcgiHeaderLen < b.length)
    (hv : (FcgiHeader.cast b).version ≠ fcgiVersion1)
    (hrec : fcgiHeaderLen < (FcgiHeader.cast b).recordLength) : HasCut b := by
  refine ⟨b.take fcgiHeaderLen, b[fcgiHeaderLen], [], ?_, ?_, ?_, ?_⟩
  · rw [List.take_append_getElem]
    exact List.take_prefix _ b
  · rw [ne_eq, List.take_eq_nil_iff, not_or]
    exact ⟨by decide, List.ne_nil_of_length_pos (by omega)⟩
  · exact .skipped_take hlen.le hv (Nat.le_refl _) hlen.le hrec.le
  · rw [List.take_append_getElem]
    exact .skipped_take hlen.le hv (Nat.le_succ _) hlen hrec

/-- A string with a record that is skipped in pieces has a cut. -/
theorem hasCut_of_not_skipsHeadersOnly {b : Bytes} (h : ¬ SkipsHeadersOnly b) : HasCut b := by
  induction hn : b.length using Nat.strong_induction_on generalizing b with
  | _ n ih =>
      subst hn
      by_cases hlen : b.length < fcgiHeaderLen
      · exact absurd (.drained hlen) h
      rw [Nat.not_lt] at hlen
      have hdrop : ¬ SkipsHeadersOnly (b.drop (FcgiHeader.cast b).recordLength) →
          HasCut (b.drop (FcgiHeader.cast b).recordLength) :=
        fun hrest => ih _ (FcgiHeader.length_drop_lt _ hlen) hrest rfl
      by_cases hv : (FcgiHeader.cast b).version = fcgiVersion1
      · by_cases hle : (FcgiHeader.cast b).recordLength ≤ b.length
        · exact .of_drop hlen hle (hdrop fun hrest => h (.packet hv hle hrest))
        · exact absurd (.incomplete hv (Nat.not_le.mp hle)) h
      · by_cases hbare : (FcgiHeader.cast b).recordLength = fcgiHeaderLen
        · refine .of_drop hlen (hbare ▸ hlen) (hdrop fun hrest => h (.bare hlen hv hbare ?_))
          rwa [hbare] at hrest
        · by_cases hlast : b.length = fcgiHeaderLen
          · exact absurd (.last hlast hv) h
          · exact .behind_header (Nat.lt_of_le_of_ne hlen (Ne.symm hlast)) hv
              (Nat.lt_of_le_of_ne (FcgiHeader.cast b).eight_le_recordLength (Ne.symm hbare))

/-! ## Cuts are invisible -/

/-- However `b` is cut into reads, the callback gets the same packets and the
same bytes are left in the buffer. -/
def PacketSocket.Owner.CutsInvisible {σ : Type} (o : Owner σ) (s : σ) (b : Bytes) : Prop :=
  ∀ chunks chunks' : List Bytes, (∀ c ∈ chunks, c ≠ []) →
    (∀ c ∈ chunks', c ≠ []) →
    chunks.flatten = b → chunks'.flatten = b →
    (o.traced.feed chunks (s, [])).state.2 = (o.traced.feed chunks' (s, [])).state.2 ∧
    (o.socket (o.traced.feed chunks (s, [])).state.1).inputBuffer =
      (o.socket (o.traced.feed chunks' (s, [])).state.1).inputBuffer

/-- **Read boundaries.**  On an open socket with an empty buffer, cuts are
invisible at every moment of a stream exactly when the stream has no record
of an unsupported version that can be skipped in pieces. -/
theorem handleRead_cuts_invisible_iff {σ : Type} {o : Owner σ} (ho : o.KeepsOpen) {s : σ}
    (hs : (o.socket s).state = .open) (hb : (o.socket s).inputBuffer = []) (b : Bytes) :
    (∀ b', b' <+: b → o.CutsInvisible s b') ↔ SkipsHeadersOnly b := by
  have hopen : (o.socket s).state ≠ .closed := by
    rw [hs]
    decide
  have hfeed : ∀ {chunks ps rest}, ReadsChunks [] chunks ps rest →
      (o.traced.feed chunks (s, [])).state.2 = ps ∧
        (o.socket (o.traced.feed chunks (s, [])).state.1).inputBuffer = rest := by
    intro chunks ps rest h
    rw [← hb] at h
    obtain ⟨_, hps, _, hrest⟩ := Owner.feed_reads ho [] hopen h
    exact ⟨hps, hrest⟩
  constructor
  · intro h
    by_contra hskips
    obtain ⟨pre, x, ps, hprefix, hne, hread, hread'⟩ := hasCut_of_not_skipsHeadersOnly hskips
    have hone : ReadsChunks [] [pre ++ [x]] (ps ++ []) [] := .cons hread' .nil
    have htwo : ReadsChunks [] [pre, [x]] (ps ++ ([] ++ [])) [x] :=
      .cons hread (.cons (.drained (by simp [fcgiHeaderLen])) .nil)
    obtain ⟨_, hleft⟩ := h _ hprefix [pre ++ [x]] [pre, [x]] (by simp) (by simp [hne]) (by simp)
      (by simp)
    rw [(hfeed hone).2, (hfeed htwo).2] at hleft
    cases hleft
  · intro hskips b' hprefix chunks chunks' _ _ hchunks hchunks'
    obtain ⟨c, rfl⟩ := hprefix
    have hskips' := hskips.of_append
    have hread : ∀ {chunks ps rest}, ReadsChunks [] chunks ps rest → chunks.flatten = b' →
        Reads b' ps rest := fun h hflat => by
      have hall := h.reads (.drained (by decide)) (by simpa [hflat] using hskips')
      simpa [hflat] using hall
    obtain ⟨ps, rest, h⟩ := ReadsChunks.total [] chunks
    obtain ⟨ps', rest', h'⟩ := ReadsChunks.total [] chunks'
    obtain ⟨rfl, rfl⟩ := (hread h hchunks).unique (hread h' hchunks')
    rw [(hfeed h).1, (hfeed h').1, (hfeed h).2, (hfeed h').2]
    exact ⟨rfl, rfl⟩

/-- A packet socket that belongs to nobody else, with a callback that throws
on records of type 8 and does nothing on the others. -/
def loneOwner : Owner PacketSocket where
  socket := id
  setSocket p _ := p
  newPacketCallback _ _ t _ := if t = fcgiData then Act.throw "FCGI_DATA " else pure ()

theorem loneOwner_keepsOpen : loneOwner.KeepsOpen where
  socket_setSocket _ _ := rfl
  exit_ne_abort r t content s w _ := by
    unfold loneOwner
    dsimp only
    split <;> simp
  state_ne_closed r t content s h := by
    unfold loneOwner
    dsimp only
    split <;> exact h
  inputBuffer_eq r t content s _ := by
    unfold loneOwner
    dsimp only
    split <;> rfl

/-- An empty record, and then eight bytes of version 9 without content. -/
theorem handleRead_cuts_invisible_iff_bare :
    (∀ b', b' <+: ([1, 5, 0, 1, 0, 0, 0, 0, 9, 5, 0, 1, 0, 0, 0, 0] : Bytes) →
      loneOwner.CutsInvisible (PacketSocket.init []) b') ↔
      SkipsHeadersOnly [1, 5, 0, 1, 0, 0, 0, 0, 9, 5, 0, 1, 0, 0, 0, 0] :=
  handleRead_cuts_invisible_iff loneOwner_keepsOpen rfl rfl _

/-- A record of version 9 with one byte of content, in one read and in two. -/
theorem cut_shows_in_skipped_record :
    ¬ ∀ (σ : Type) (o : Owner σ) (s : σ) (b : Bytes), o.KeepsOpen →
      (o.socket s).state = .open →
      (o.socket s).inputBuffer = [] → o.CutsInvisible s b := by
  intro h
  obtain ⟨_, hleft⟩ := h _ loneOwner (PacketSocket.init []) [9, 5, 0, 1, 0, 1, 0, 0, 7]
    loneOwner_keepsOpen rfl rfl [[9, 5, 0, 1, 0, 1, 0, 0, 7]] [[9, 5, 0, 1, 0, 1, 0, 0], [7]]
    (by simp) (by simp) rfl rfl
  revert hleft
  decide

end Santiago
