import Santiago.Reading

/-!
# Santiago.Progress

The loop of `handleRead` under a callback that may do what it likes: return,
throw, or close the socket and then return or throw.  `Reading` follows the
loop as long as the socket stays open; here one pass is described for every
callback (`Pass`), and a run of passes by what it took off the buffer
(`Consumed`).

A callback that closes the socket and returns ends the loop.  One that closes
it and throws does not: the handler consumes the record and goes on, so the
records behind it are still passed on.  Either way nothing is passed on twice.
-/

namespace Santiago

open Effect Bytes PacketSocket

/-! ## Records and what is left of them -/

/-- Header, content and padding of one record, and nothing behind them. -/
def WholeRecord (rec : Bytes) : Prop := (FcgiHeader.cast rec).recordLength = rec.length

/-- The record starts with a version-1 header. -/
def isVersion1 (rec : Bytes) : Bool := (FcgiHeader.cast rec).version = fcgiVersion1

/-- The header of another version, and not all that it announces. -/
structure TruncatedUnsupported (cut : Bytes) : Prop where
  header_le : fcgiHeaderLen ≤ cut.length
  version_ne : (FcgiHeader.cast cut).version ≠ fcgiVersion1
  length_lt : cut.length < (FcgiHeader.cast cut).recordLength

/-- `consumed` is a row of whole records, those of version 1 among them are
the packets `ps` in this order, and only behind all of them, with nothing
`left`, may a truncated record of another version stand. -/
def Consumed (consumed : Bytes) (ps : List (Nat × UInt8 × Bytes)) (left : Bytes) : Prop :=
  ∃ (recs : List Bytes) (cut : Bytes), consumed = recs.flatten ++ cut ∧
    (∀ rec ∈ recs, WholeRecord rec) ∧ ps = (recs.filter isVersion1).map packetAt ∧
    (cut = [] ∨ TruncatedUnsupported cut ∧ left = [])

/-- The record that a pass takes off a buffer that holds all of it. -/
theorem wholeRecord_take {b : Bytes} (h : (FcgiHeader.cast b).recordLength ≤ b.length) :
    FcgiHeader.cast (b.take (FcgiHeader.cast b).recordLength) = FcgiHeader.cast b ∧
      WholeRecord (b.take (FcgiHeader.cast b).recordLength) := by
  have hcast := FcgiHeader.cast_take (FcgiHeader.cast b).eight_le_recordLength
    (header_le_of_record_le h)
  refine ⟨hcast, ?_⟩
  rw [WholeRecord, hcast, List.length_take_of_le h]

/-- The packet of a record is the packet at the head of the buffer it is taken off. -/
theorem packetAt_take {b : Bytes} (h : (FcgiHeader.cast b).recordLength ≤ b.length) :
    packetAt (b.take (FcgiHeader.cast b).recordLength) = packetAt b := by
  obtain ⟨hcast, hwhole⟩ := wholeRecord_take h
  conv_rhs => rw [← List.take_append_drop (FcgiHeader.cast b).recordLength b]
  exact (packetAt_append (Nat.le_of_eq hwhole) _).symm

namespace Consumed

variable {b consumed left : Bytes} {ps : List (Nat × UInt8 × Bytes)}

theorem nil : Consumed [] [] left := ⟨[], [], rfl, by simp, rfl, .inl rfl⟩

/-- A version-1 record in front is one packet more. -/
theorem packet (hv : (FcgiHeader.cast b).version = fcgiVersion1)
    (hle : (FcgiHeader.cast b).recordLength ≤ b.length) (h : Consumed consumed ps left) :
    Consumed (b.take (FcgiHeader.cast b).recordLength ++ consumed) (packetAt b :: ps) left := by
  obtain ⟨recs, cut, rfl, hwhole, rfl, hcut⟩ := h
  obtain ⟨hcast, htake⟩ := wholeRecord_take hle
  have hv1 : isVersion1 (b.take (FcgiHeader.cast b).recordLength) = true := by
    rw [isVersion1, hcast, hv]
    rfl
  refine ⟨b.take (FcgiHeader.cast b).recordLength :: recs, cut, ?_, ?_, ?_, hcut⟩
  · rw [List.flatten_cons, List.append_assoc]
  · exact List.forall_mem_cons.mpr ⟨htake, hwhole⟩
  · rw [List.filter_cons_of_pos hv1, List.map_cons, packetAt_take hle]

/-- A record of another version in front is no packet. -/
theorem skip (hv : (FcgiHeader.cast b).version ≠ fcgiVersion1)
    (hle : (FcgiHeader.cast b).recordLength ≤ b.length) (h : Consumed consumed ps left) :
    Consumed (b.take (FcgiHeader.cast b).recordLength ++ consumed) ps left := by
  obtain ⟨recs, cut, rfl, hwhole, rfl, hcut⟩ := h
  obtain ⟨hcast, htake⟩ := wholeRecord_take hle
  have hv1 : ¬ isVersion1 (b.take (FcgiHeader.cast b).recordLength) = true := by
    rw [isVersion1, hcast, decide_eq_true_eq]
    exact hv
  refine ⟨b.take (FcgiHeader.cast b).recordLength :: recs, cut, ?_, ?_, ?_, hcut⟩
  · rw [List.flatten_cons, List.append_assoc]
  · exact List.forall_mem_cons.mpr ⟨htake, hwhole⟩
  · rw [List.filter_cons_of_neg hv1]

/-- `consume` clamps: of a record that is cut off everything goes. -/
theorem truncated (h : TruncatedUnsupported b) : Consumed b [] [] :=
  ⟨[], b, rfl, by simp, rfl, .inr ⟨h, rfl⟩⟩

/-- Nothing is consumed of nothing. -/
theorem eq_nil_of_append_eq_nil (h : Consumed consumed ps left) (hnil : consumed ++ left = []) :
    consumed = [] ∧ ps = [] ∧ left = [] := by
  obtain ⟨rfl, rfl⟩ := List.append_eq_nil_iff.mp hnil
  obtain ⟨recs, cut, hflat, hwhole, rfl, _⟩ := h
  cases recs with
  | nil => exact ⟨rfl, rfl, rfl⟩
  | cons rec recs =>
      have h8 := (FcgiHeader.cast rec).eight_le_recordLength
      rw [hwhole rec List.mem_cons_self] at h8
      rw [List.flatten_cons, List.append_assoc] at hflat
      obtain ⟨rfl, _⟩ := List.append_eq_nil_iff.mp hflat.symm
      cases h8

end Consumed

/-! ## The loop under any callback -/

namespace PacketSocket.Owner

variable {σ : Type} {o : Owner σ}

/-- The socket is a part of the owner, and the callback, which may return or
throw and may close the socket, does not touch its private input buffer. -/
structure KeepsBuffer (o : Owner σ) : Prop where
  socket_setSocket : ∀ p s, o.socket (o.setSocket p s) = p
  exit_ne_abort : ∀ r t content s w, (o.newPacketCallback false r t content s).exit ≠ .abort w
  inputBuffer_eq : ∀ r t content s,
    (o.socket (o.newPacketCallback false r t content s).state).inputBuffer =
      (o.socket s).inputBuffer

/-- Everything one pass of the noting loop can do. -/
inductive Pass (o : Owner σ) : σ × List (Nat × UInt8 × Bytes) →
    Outcome Event (σ × List (Nat × UInt8 × Bytes)) Bool → Prop
  | settled {t : σ × List (Nat × UInt8 × Bytes)} :
      Settled (o.socket t.1).inputBuffer → Pass o t ⟨.ret false, t, []⟩
  | skipped {s s' : σ} {noted : List (Nat × UInt8 × Bytes)} {b : Bytes} :
      (o.socket s).inputBuffer = b → fcgiHeaderLen ≤ b.length →
      (FcgiHeader.cast b).version ≠ fcgiVersion1 →
      (o.socket s').inputBuffer = b.drop (FcgiHeader.cast b).recordLength →
      Pass o (s, noted) ⟨.ret true, (s', noted), []⟩
  | passed {s s' : σ} {noted : List (Nat × UInt8 × Bytes)} {b : Bytes} {again : Bool}
      {es : List Event} : (o.socket s).inputBuffer = b →
      (FcgiHeader.cast b).version = fcgiVersion1 →
      (FcgiHeader.cast b).recordLength ≤ b.length →
      (o.socket s').inputBuffer = b.drop (FcgiHeader.cast b).recordLength →
      (again = false → (o.socket s').state = .closed) →
      Pass o (s, noted) ⟨.ret again, (s', noted ++ [packetAt b]), es⟩

theorem nextPacket_pass (ho : o.KeepsBuffer) (t : σ × List (Nat × UInt8 × Bytes)) :
    Pass o t (o.traced.nextPacket t) := by
  obtain ⟨s, noted⟩ := t
  by_cases hlen : (o.socket s).inputBuffer.length < fcgiHeaderLen
  · rw [nextPacket_settled (.inl hlen)]
    exact .settled (.inl hlen)
  rw [Nat.not_lt] at hlen
  by_cases hv : (FcgiHeader.cast (o.socket s).inputBuffer).version = fcgiVersion1
  · by_cases hle : (FcgiHeader.cast (o.socket s).inputBuffer).recordLength ≤
        (o.socket s).inputBuffer.length
    · obtain ⟨again, s', es, hrun, hagain, _, hinput⟩ :=
        nextPacket_record ho.socket_setSocket noted hv hle rfl
          (fun w => ho.exit_ne_abort _ _ _ s w) (ho.inputBuffer_eq _ _ _ s)
      rw [hrun]
      exact .passed rfl hv hle hinput hagain
    · rw [Nat.not_le] at hle
      rw [nextPacket_settled (.inr ⟨hv, hle⟩)]
      exact .settled (.inr ⟨hv, hle⟩)
  · obtain ⟨s', hrun, _, hinput⟩ := nextPacket_skip ho.socket_setSocket noted hlen hv
    rw [hrun]
    exact .skipped rfl hlen hv hinput

theorem Pass.of_run (ho : o.KeepsBuffer) {t : σ × List (Nat × UInt8 × Bytes)}
    {out : Outcome Event (σ × List (Nat × UInt8 × Bytes)) Bool}
    (h : o.traced.nextPacket t = out) : Pass o t out := by
  rw [← h]
  exact nextPacket_pass ho t

/-- A pass that goes on has taken something off the buffer. -/
theorem Pass.length_lt {t t' : σ × List (Nat × UInt8 × Bytes)} {es : List Event}
    (h : Pass o t ⟨.ret true, t', es⟩) :
    (o.socket t'.1).inputBuffer.length < (o.socket t.1).inputBuffer.length := by
  cases h with
  | skipped hb hlen _ hinput =>
      rw [hinput, hb]
      exact FcgiHeader.length_drop_lt _ hlen
  | passed hb _ hle hinput =>
      rw [hinput, hb]
      exact FcgiHeader.length_drop_lt _ (header_le_of_record_le hle)

/-- **Termination**: as many passes as there are bytes, whatever the callback does. -/
theorem exists_loops (ho : o.KeepsBuffer) (t : σ × List (Nat × UInt8 × Bytes)) :
    ∃ out, Act.Loops o.traced.nextPacket t out := by
  refine Act.Loops.exists_of_measure (fun t => (o.socket t.1).inputBuffer.length) ?_ t
  intro t t' es hrun
  exact (Pass.of_run ho hrun).length_lt

/-- `readLoop` is that loop: its passes do not run out before the buffer does. -/
theorem readLoop_of_loops (ho : o.KeepsBuffer) {t : σ × List (Nat × UInt8 × Bytes)}
    {out : Outcome Event (σ × List (Nat × UInt8 × Bytes)) Unit}
    (h : Act.Loops o.traced.nextPacket t out) {fuel : Nat}
    (hfuel : (o.socket t.1).inputBuffer.length < fuel) : o.traced.readLoop fuel t = out := by
  induction h generalizing fuel with
  | ended hrun =>
      obtain ⟨fuel, rfl⟩ := Nat.exists_eq_add_one_of_ne_zero (Nat.ne_zero_of_lt hfuel)
      rw [readLoop, Act.bind_of_ret hrun]
      simp
  | again hrun _ ih =>
      obtain ⟨fuel, rfl⟩ := Nat.exists_eq_add_one_of_ne_zero (Nat.ne_zero_of_lt hfuel)
      have hshort := (Pass.of_run ho hrun).length_lt
      rw [readLoop, Act.bind_of_ret hrun, Act.when_true, ih (by omega)]
  | thrown hrun =>
      obtain ⟨fuel, rfl⟩ := Nat.exists_eq_add_one_of_ne_zero (Nat.ne_zero_of_lt hfuel)
      rw [readLoop, Act.bind_of_throw hrun]
  | aborted hrun =>
      obtain ⟨fuel, rfl⟩ := Nat.exists_eq_add_one_of_ne_zero (Nat.ne_zero_of_lt hfuel)
      rw [readLoop, Act.bind_of_abort hrun]

/-- What a run of passes leaves, and what it consumed and noted to get there. -/
structure Progressed (o : Owner σ) (t : σ × List (Nat × UInt8 × Bytes))
    (consumed : Bytes) (ps : List (Nat × UInt8 × Bytes))
    (out : Outcome Event (σ × List (Nat × UInt8 × Bytes)) Unit) : Prop where
  exit_eq : out.exit = .ret ()
  settled : (o.socket out.state.1).state = .closed ∨ Settled (o.socket out.state.1).inputBuffer
  buffer_eq : (o.socket t.1).inputBuffer = consumed ++ (o.socket out.state.1).inputBuffer
  noted_eq : out.state.2 = t.2 ++ ps
  consumed : Consumed consumed ps (o.socket out.state.1).inputBuffer

/-- A pass that took the whole record at the head of the buffer, before the
rest of the run. -/
theorem Progressed.record {s s' : σ} {noted ps : List (Nat × UInt8 × Bytes)}
    {packets : List (Nat × UInt8 × Bytes)} {b consumed : Bytes}
    {out : Outcome Event (σ × List (Nat × UInt8 × Bytes)) Unit} (es : List Event)
    (hb : (o.socket s).inputBuffer = b)
    (hinput : (o.socket s').inputBuffer = b.drop (FcgiHeader.cast b).recordLength)
    (h : Progressed o (s', noted ++ packets) consumed ps out)
    (hconsumed : Consumed (b.take (FcgiHeader.cast b).recordLength ++ consumed) (packets ++ ps)
      (o.socket out.state.1).inputBuffer) :
    Progressed o (s, noted) (b.take (FcgiHeader.cast b).recordLength ++ consumed) (packets ++ ps)
      (out.after es) where
  exit_eq := h.exit_eq
  settled := h.settled
  buffer_eq := by
    have hrest := h.buffer_eq
    rw [hinput] at hrest
    rw [hb, Outcome.state_after, List.append_assoc, ← hrest, List.take_append_drop]
  noted_eq := by rw [Outcome.state_after, h.noted_eq, List.append_assoc]
  consumed := hconsumed

/-- A loop that ends where it stands. -/
theorem Progressed.refl {t : σ × List (Nat × UInt8 × Bytes)} (es : List Event)
    (h : (o.socket t.1).state = .closed ∨ Settled (o.socket t.1).inputBuffer) :
    Progressed o t [] [] ⟨.ret (), t, es⟩ where
  exit_eq := rfl
  settled := h
  buffer_eq := rfl
  noted_eq := (List.append_nil _).symm
  consumed := .nil

/-- A skipped record before the rest of the run.  One that is cut off takes
the whole buffer with it, and the rest of the run has nothing to read. -/
theorem Progressed.skipped {s s' : σ} {noted ps : List (Nat × UInt8 × Bytes)}
    {b consumed : Bytes} {out : Outcome Event (σ × List (Nat × UInt8 × Bytes)) Unit}
    (es : List Event) (hb : (o.socket s).inputBuffer = b) (hlen : fcgiHeaderLen ≤ b.length)
    (hv : (FcgiHeader.cast b).version ≠ fcgiVersion1)
    (hinput : (o.socket s').inputBuffer = b.drop (FcgiHeader.cast b).recordLength)
    (h : Progressed o (s', noted) consumed ps out) :
    Progressed o (s, noted) (b.take (FcgiHeader.cast b).recordLength ++ consumed) ps
      (out.after es) := by
  have hnoted : Progressed o (s', noted ++ []) consumed ps out := by rwa [List.append_nil]
  refine hnoted.record es hb hinput ?_
  by_cases hle : (FcgiHeader.cast b).recordLength ≤ b.length
  · exact h.consumed.skip hv hle
  · rw [Nat.not_le] at hle
    have hempty : consumed ++ (o.socket out.state.1).inputBuffer = [] := by
      rw [← h.buffer_eq, hinput]
      exact List.drop_eq_nil_of_le (Nat.le_of_lt hle)
    obtain ⟨rfl, rfl, hleft⟩ := h.consumed.eq_nil_of_append_eq_nil hempty
    rw [List.take_of_length_le (Nat.le_of_lt hle), List.append_nil, List.append_nil, hleft]
    exact .truncated ⟨hlen, hv, hle⟩

/-- **What a run of passes does**, pass by pass. -/
theorem loops_progressed (ho : o.KeepsBuffer) {t : σ × List (Nat × UInt8 × Bytes)}
    {out : Outcome Event (σ × List (Nat × UInt8 × Bytes)) Unit}
    (h : Act.Loops o.traced.nextPacket t out) :
      ∃ consumed ps, Progressed o t consumed ps out := by
  induction h with
  | @ended _ _ es hrun =>
      cases Pass.of_run ho hrun with
      | settled hsettled => exact ⟨[], [], .refl _ (.inr hsettled)⟩
      | @passed _ s' noted b _ _ hb hv hle hinput hclosed =>
          have hend := Progressed.refl (o := o) (t := (s', noted ++ [packetAt b])) es
            (.inl (hclosed rfl))
          exact ⟨_, _, hend.record [] hb hinput (.packet hv hle .nil)⟩
  | again hrun _ ih =>
      obtain ⟨consumed, ps, hrest⟩ := ih
      cases Pass.of_run ho hrun with
      | skipped hb hlen hv hinput => exact ⟨_, _, hrest.skipped _ hb hlen hv hinput⟩
      | passed hb hv hle hinput _ =>
          exact ⟨_, _, hrest.record _ hb hinput (.packet hv hle hrest.consumed)⟩
  | thrown hrun => cases Pass.of_run ho hrun
  | aborted hrun => cases Pass.of_run ho hrun

end PacketSocket.Owner

/-- **Progress.**  On an open socket the loop of `handleRead` terminates,
whatever each call of the callback does.  It ends with the socket closed or
with nothing complete left, and what it consumed are whole records, each one
of version 1 passed on exactly once and in order, but for a truncated record
of another version at the very end. -/
theorem handleRead_progress {σ : Type} {o : Owner σ} (ho : o.KeepsBuffer) {s : σ}
    (hs : (o.socket s).state = .open) (bytes : Bytes) :
    ∃ entry out consumed,
      o.traced.enterHandleRead false bytes (s, []) = ⟨.ret true, entry, []⟩ ∧
      (o.socket entry.1).inputBuffer = (o.socket s).inputBuffer ++ bytes ∧
      Act.Loops o.traced.nextPacket entry out ∧
      o.traced.handleRead false bytes (s, []) = out ∧ out.exit = .ret () ∧
      ((o.socket out.state.1).state = .closed ∨
        (o.socket out.state.1).inputBuffer.length < fcgiHeaderLen ∨
        (FcgiHeader.cast (o.socket out.state.1).inputBuffer).version = fcgiVersion1 ∧
          (o.socket out.state.1).inputBuffer.length <
            (FcgiHeader.cast (o.socket out.state.1).inputBuffer).recordLength) ∧
      (o.socket s).inputBuffer ++ bytes = consumed ++ (o.socket out.state.1).inputBuffer ∧
      Consumed consumed out.state.2 (o.socket out.state.1).inputBuffer := by
  have hopen : (o.socket s).state ≠ .closed := by
    rw [hs]
    decide
  obtain ⟨s', henter, _, hinput⟩ :=
    Owner.enterHandleRead_open ho.socket_setSocket [] hopen bytes
  obtain ⟨out, hloops⟩ := Owner.exists_loops ho (s', [])
  obtain ⟨consumed, ps, hrun⟩ := Owner.loops_progressed ho hloops
  have hps : out.state.2 = ps := hrun.noted_eq
  have hbuffer := hrun.buffer_eq
  have hconsumed := hrun.consumed
  rw [hinput] at hbuffer
  rw [← hps] at hconsumed
  refine ⟨(s', []), out, consumed, henter, hinput, hloops, ?_, hrun.exit_eq, hrun.settled,
    hbuffer, hconsumed⟩
  rw [Owner.handleRead_entered henter]
  exact Owner.readLoop_of_loops ho hloops (Nat.lt_succ_self _)

/-- A packet socket that belongs to nobody else, whose callback closes it at
every record and then throws on those of type 8. -/
def closingOwner : Owner PacketSocket where
  socket := id
  setSocket p _ := p
  newPacketCallback _ _ t _ := do
    PacketSocket.close
    if t = fcgiData then Act.throw "FCGI_DATA " else pure ()

theorem closingOwner_keepsBuffer : closingOwner.KeepsBuffer where
  socket_setSocket _ _ := rfl
  exit_ne_abort r t content s w := by
    unfold closingOwner
    dsimp only
    rw [Act.bind_of_ret (PacketSocket.close_run s)]
    split <;> simp
  inputBuffer_eq r t content s := by
    unfold closingOwner
    dsimp only
    rw [Act.bind_of_ret (PacketSocket.close_run s)]
    split <;> simp

/-- Three records: the callback closes the socket at the first and throws,
closes it again at the second and returns, and the third stays. -/
theorem handleRead_progress_closing :
    ∃ out consumed,
      closingOwner.traced.handleRead false
        [1, 8, 0, 1, 0, 0, 0, 0, 1, 5, 0, 1, 0, 1, 0, 0, 7, 1, 5, 0, 1, 0, 0, 0, 0]
        (PacketSocket.init [], []) = out ∧
      out.state.2 = [(1, 8, []), (1, 5, [7])] ∧
      out.state.1.inputBuffer = [1, 5, 0, 1, 0, 0, 0, 0] ∧
      [1, 8, 0, 1, 0, 0, 0, 0, 1, 5, 0, 1, 0, 1, 0, 0, 7, 1, 5, 0, 1, 0, 0, 0, 0] =
        consumed ++ out.state.1.inputBuffer ∧
      Consumed consumed out.state.2 out.state.1.inputBuffer := by
  obtain ⟨_, out, consumed, _, _, _, hrun, _, _, hbuffer, hconsumed⟩ :=
    handleRead_progress closingOwner_keepsBuffer (s := PacketSocket.init []) rfl
      [1, 8, 0, 1, 0, 0, 0, 0, 1, 5, 0, 1, 0, 1, 0, 0, 7, 1, 5, 0, 1, 0, 0, 0, 0]
  refine ⟨out, consumed, hrun, ?_, ?_, hbuffer, hconsumed⟩
  · rw [← hrun]
    decide
  · rw [← hrun]
    decide

end Santiago
