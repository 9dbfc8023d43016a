import Santiago.Reading

/-!
# Santiago.Writing

Writer and reader agree.  `writePacket` cuts a content into fragments of at
most 65535 bytes and pads each record to a multiple of eight; the read loop
takes the records apart again, wherever the reads are cut.
-/

namespace Santiago

open Effect Bytes PacketSocket

/-! ## Bytes of records -/

/-- What an event puts on the wire. -/
def Event.sent : Event → Bytes
  | .wrote header content =>
      header.toBytes ++ content ++ List.replicate header.paddingLength.toNat 0
  | .writeError sent => sent
  | _ => []

/-- Everything a run puts on the wire. -/
def sentBytes (es : List Event) : Bytes := es.flatMap Event.sent

namespace PacketSocket

/-- One record as it goes out: header, content and zeros. -/
def recordBytes (p : FcgiHeader × Bytes) : Bytes := (wroteEvent p).sent

theorem sentBytes_map_wroteEvent (ps : List (FcgiHeader × Bytes)) :
    sentBytes (ps.map wroteEvent) = ps.flatMap recordBytes := List.flatMap_map ..

/-! ## Fragments -/

/-- A record that `writePacket` makes: the header states its content's length. -/
def IsFragment (r : Nat) (t : UInt8) (p : FcgiHeader × Bytes) : Prop :=
  p.1 = fragmentHeader r t p.2.length ∧ p.2.length ≤ 0xffff

/-- The records of one content: fragments that make up the content; none is
empty, except that an empty content is one empty record. -/
structure Fragments (r : Nat) (t : UInt8) (content : Bytes) (ps : List (FcgiHeader × Bytes)) :
    Prop where
  fragment : ∀ p ∈ ps, IsFragment r t p
  content_eq : ps.flatMap Prod.snd = content
  empty : content = [] → ps = [(fragmentHeader r t 0, [])]
  ne_nil : content ≠ [] → ∀ p ∈ ps, p.2 ≠ []
  length_eq : content ≠ [] → ps.length = (content.length + 0xfffe) / 0xffff

/-- The last fragment takes what is left. -/
theorem fragments_last (r : Nat) (t : UInt8) {content : Bytes} (h : content.length ≤ 0xffff) :
    Fragments r t content [(fragmentHeader r t content.length, content)] where
  fragment p hp := by
    rw [List.mem_singleton] at hp
    subst hp
    exact ⟨rfl, h⟩
  content_eq := by simp
  empty hnil := by rw [hnil, List.length_nil]
  ne_nil hne p hp := by
    rw [List.mem_singleton] at hp
    subst hp
    exact hne
  length_eq hne := by
    have hpos := List.length_pos_of_ne_nil hne
    rw [List.length_singleton]
    omega

/-- A full fragment in front of the rest, which is not empty. -/
theorem Fragments.cons {r : Nat} {t : UInt8} {content : Bytes} {ps : List (FcgiHeader × Bytes)}
    (hlt : 0xffff < content.length) (h : Fragments r t (content.drop 0xffff) ps) :
    Fragments r t content ((fragmentHeader r t 0xffff, content.take 0xffff) :: ps) := by
  have htake : (content.take 0xffff).length = 0xffff := by
    rw [List.length_take]
    omega
  have hdrop : (content.drop 0xffff).length = content.length - 0xffff := List.length_drop
  have hrest : content.drop 0xffff ≠ [] := List.ne_nil_of_length_pos (by omega)
  have hne : content ≠ [] := List.ne_nil_of_length_pos (by omega)
  constructor
  case fragment =>
    intro p hp
    obtain rfl | hp := List.mem_cons.mp hp
    · exact ⟨by rw [htake], by rw [htake]⟩
    · exact h.fragment p hp
  case content_eq => rw [List.flatMap_cons, h.content_eq, List.take_append_drop]
  case empty => exact fun hnil => absurd hnil hne
  case ne_nil =>
    intro _ p hp
    obtain rfl | hp := List.mem_cons.mp hp
    · show content.take 0xffff ≠ []
      exact List.ne_nil_of_length_pos (by omega)
    · exact h.ne_nil hrest p hp
  case length_eq =>
    intro _
    rw [List.length_cons, h.length_eq hrest, hdrop]
    omega

/-- The loop of `writePacket` cuts what is left from its position on. -/
theorem fragments_recordsFrom (r : Nat) (t : UInt8) (content : Bytes) {fuel n : Nat}
    (hn : n ≤ content.length) (hfuel : (content.length - n) / 0xffff < fuel) :
    Fragments r t (content.drop n) (recordsFrom r t content.length content fuel n) := by
  induction fuel generalizing n with
  | zero => exact absurd hfuel (Nat.not_lt_zero _)
  | succ fuel ih =>
      have hlen : (content.drop n).length = content.length - n := List.length_drop
      rw [recordsFrom]
      by_cases hlast : content.length - n ≤ 0xffff
      · have hmin : min (content.length - n) 0xffff = content.length - n := Nat.min_eq_left hlast
        have hend : n + (content.length - n) = content.length := by omega
        simp only [hmin, hend, if_true]
        rw [← hlen, List.take_length]
        exact fragments_last r t (by omega)
      · have hmin : min (content.length - n) 0xffff = 0xffff := Nat.min_eq_right (by omega)
        have hend : n + 0xffff ≠ content.length := by omega
        have hrest := ih (n := n + 0xffff) (by omega) (by omega)
        rw [← List.drop_drop] at hrest
        simp only [hmin, hend, if_false]
        exact hrest.cons (by omega)

theorem fragments_packetRecords (r : Nat) (t : UInt8) (content : Bytes) :
    Fragments r t content (packetRecords r t content.length content) := by
  have h := fragments_recordsFrom r t content (Nat.zero_le _)
    (Nat.lt_succ_self ((content.length - 0) / 0xffff))
  rwa [List.drop_zero] at h

/-! ## A fragment on the wire -/

/-- The header's high length byte, which the code does not mask. -/
theorem highByte_eq_octet (n : Nat) : UInt8.ofNat (n >>> 8) = octet (n >>> 8) := by
  apply UInt8.toNat_inj.mp
  rw [toNat_octet, UInt8.toNat_ofNat']

theorem IsFragment.contentLength_eq {r : Nat} {t : UInt8} {p : FcgiHeader × Bytes}
    (h : IsFragment r t p) : p.1.contentLength = p.2.length := by
  obtain ⟨hheader, hle⟩ := h
  rw [hheader, FcgiHeader.contentLength, fragmentHeader, highByte_eq_octet]
  exact two_octets (by omega)

/-- Eight bytes of header, the content, and at most seven zeros up to a multiple of eight. -/
theorem IsFragment.length_recordBytes {r : Nat} {t : UInt8} {p : FcgiHeader × Bytes}
    (h : IsFragment r t p) : (recordBytes p).length = p.1.recordLength ∧
      8 ∣ (recordBytes p).length ∧ p.1.paddingLength.toNat ≤ 7 := by
  have hcontent := h.contentLength_eq
  obtain ⟨hheader, hle⟩ := h
  have hpad : p.1.paddingLength.toNat = (8 - p.2.length % 8) % 8 := by
    rw [hheader, fragmentHeader, UInt8.toNat_ofNat']
    omega
  have hlength : (recordBytes p).length = 8 + p.2.length + p.1.paddingLength.toNat := by
    simp [recordBytes, wroteEvent, Event.sent, Nat.add_assoc]
  rw [FcgiHeader.recordLength, fcgiHeaderLen, hcontent, hlength, hpad]
  omega

/-- A fragment is a record that a peer may send. -/
theorem IsFragment.exists_wireRecord {r : Nat} {t : UInt8} {p : FcgiHeader × Bytes}
    (h : IsFragment r t p) (hr : r < 65536) : ∃ rec : WireRecord, rec.requestId = r ∧
      rec.type = t ∧ rec.content = p.2 ∧ rec.toBytes = recordBytes p := by
  have hpad := h.length_recordBytes.2.2
  have hlength : octet (List.replicate p.1.paddingLength.toNat (0 : UInt8)).length =
      p.1.paddingLength := by
    rw [List.length_replicate, octet_toNat]
  obtain ⟨hheader, hle⟩ := h
  have hhigh := highByte_eq_octet p.2.length
  let record : WireRecord :=
    { type := t, requestId := r, content := p.2
      padding := List.replicate p.1.paddingLength.toNat 0, reserved := 0
      requestId_lt := hr
      content_lt := by omega
      padding_lt := by rw [List.length_replicate]; omega }
  have hrecord : record.header = p.1 := by
    simp only [WireRecord.header, record, hlength]
    rw [hheader]
    simp only [fragmentHeader, hhigh]
  refine ⟨record, rfl, rfl, rfl, ?_⟩
  rw [WireRecord.toBytes, hrecord]
  simp [recordBytes, wroteEvent, Event.sent, record]

/-- The records of fragments, which all carry the same id and type. -/
theorem exists_wireRecords {r : Nat} {t : UInt8} {ps : List (FcgiHeader × Bytes)}
    (h : ∀ p ∈ ps, IsFragment r t p) (hr : r < 65536) :
    ∃ recs : List WireRecord, (∀ rec ∈ recs, rec.requestId = r ∧ rec.type = t) ∧
      recs.map WireRecord.content = ps.map Prod.snd ∧
      recs.flatMap WireRecord.toBytes = ps.flatMap recordBytes := by
  induction ps with
  | nil => exact ⟨[], by simp, rfl, rfl⟩
  | cons p ps ih =>
      obtain ⟨rec, hid, htype, hcontent, hbytes⟩ :=
        (h p (List.mem_cons_self ..)).exists_wireRecord hr
      obtain ⟨recs, hall, hcontents, hwire⟩ := ih fun q hq => h q (List.mem_cons_of_mem _ hq)
      refine ⟨rec :: recs, ?_, ?_, ?_⟩
      · intro rec' hmem
        obtain rfl | hmem := List.mem_cons.mp hmem
        · exact ⟨hid, htype⟩
        · exact hall rec' hmem
      · rw [List.map_cons, List.map_cons, hcontent, hcontents]
      · rw [List.flatMap_cons, List.flatMap_cons, hbytes, hwire]

/-- The reader takes fragments off a string one by one. -/
theorem reads_fragments {r : Nat} {t : UInt8} {ps : List (FcgiHeader × Bytes)}
    (h : ∀ p ∈ ps, IsFragment r t p) (hr : r < 65536) {b rest : Bytes}
    {qs : List (Nat × UInt8 × Bytes)} (hb : Reads b qs rest) :
    Reads (ps.flatMap recordBytes ++ b) (ps.map (fun p => (r, t, p.2)) ++ qs) rest := by
  induction ps with
  | nil => exact hb
  | cons p ps ih =>
      obtain ⟨rec, rfl, rfl, hcontent, hbytes⟩ :=
        (h p (List.mem_cons_self ..)).exists_wireRecord hr
      have hrest := ih fun q hq => h q (List.mem_cons_of_mem _ hq)
      rw [List.flatMap_cons, List.append_assoc, List.map_cons, List.cons_append, ← hbytes,
        ← hcontent]
      exact hrest.wireRecord rec

/-- No record of the writer is one that the reader skips. -/
theorem skipsHeadersOnly_fragments {r : Nat} {t : UInt8} {ps : List (FcgiHeader × Bytes)}
    (h : ∀ p ∈ ps, IsFragment r t p) (hr : r < 65536) {b : Bytes} (hb : SkipsHeadersOnly b) :
    SkipsHeadersOnly (ps.flatMap recordBytes ++ b) := by
  induction ps with
  | nil => exact hb
  | cons p ps ih =>
      obtain ⟨rec, _, _, _, hbytes⟩ := (h p (List.mem_cons_self ..)).exists_wireRecord hr
      obtain ⟨hrec, hv, _⟩ := rec.whole
      rw [List.flatMap_cons, List.append_assoc, ← hbytes]
      exact (ih fun q hq => h q (List.mem_cons_of_mem _ hq)).record_append hrec hv

/-! ## Sequences of packets -/

/-- `writePacket` for one packet behind the other, until a write fails. -/
def writePackets : List (Nat × UInt8 × Bytes) → Act Event PacketSocket Bool
  | [] => pure false
  | (r, t, content) :: packets => do
      let ec ← writePacket r t content.length content
      if ec then pure true else writePackets packets

/-- The packets that arrive for one call: the same id and type, the same
content in pieces of which none is empty, or one empty packet for no content. -/
structure Block (packet : Nat × UInt8 × Bytes)
    (received : List (Nat × UInt8 × Bytes)) : Prop where
  id_type : ∀ p ∈ received, p.1 = packet.1 ∧ p.2.1 = packet.2.1
  content_eq : received.flatMap (fun p => p.2.2) = packet.2.2
  empty : packet.2.2 = [] → received = [packet]
  ne_nil : packet.2.2 ≠ [] → ∀ p ∈ received, p.2.2 ≠ []
  length_eq : packet.2.2 ≠ [] → received.length = (packet.2.2.length + 0xfffe) / 0xffff

theorem Fragments.block {r : Nat} {t : UInt8} {content : Bytes} {ps : List (FcgiHeader × Bytes)}
    (h : Fragments r t content ps) :
    Block (r, t, content) (ps.map fun p => (r, t, p.2)) where
  id_type p hp := by
    obtain ⟨q, _, rfl⟩ := List.mem_map.mp hp
    exact ⟨rfl, rfl⟩
  content_eq := by rw [List.flatMap_map, h.content_eq]
  empty hnil := by
    rw [h.empty hnil]
    simp [show content = [] from hnil]
  ne_nil hne p hp := by
    obtain ⟨q, hq, rfl⟩ := List.mem_map.mp hp
    exact h.ne_nil hne q hq
  length_eq hne := by rw [List.length_map, h.length_eq hne]

/-- Successful calls write the fragments of each packet, in order. -/
theorem writePackets_run {packets : List (Nat × UInt8 × Bytes)} {s : PacketSocket}
    (h : (writePackets packets s).exit = .ret false) :
    (writePackets packets s).events = (packets.flatMap fun p =>
      packetRecords p.1 p.2.1 p.2.2.length p.2.2).map wroteEvent := by
  induction packets generalizing s with
  | nil => rfl
  | cons p packets ih =>
      obtain ⟨r, t, content⟩ := p
      by_cases hs : s.state = .closed
      · rw [writePackets, Act.bind_of_abort (writePacket_run_closed hs r t _ _)] at h
        cases h
      have hrun := writePacket_run hs r t content.length content
      obtain hok | ⟨k, part, _, _, hfail⟩ :=
        writeRecords_cases (packetRecords r t content.length content) s
      · rw [hok] at hrun
        rw [writePackets, Act.bind_of_ret hrun] at h ⊢
        simp only [Bool.false_eq_true, if_false, Outcome.exit_after, Outcome.events_after] at h ⊢
        rw [ih h, List.flatMap_cons, List.map_append]
      · rw [hfail] at hrun
        rw [writePackets, Act.bind_of_ret hrun] at h
        cases h

/-- What the reader gets for the fragments of some packets. -/
def receivedBlocks (packets : List (Nat × UInt8 × Bytes)) : List (List (Nat × UInt8 × Bytes)) :=
  packets.map fun p =>
    (packetRecords p.1 p.2.1 p.2.2.length p.2.2).map fun q => (p.1, p.2.1, q.2)

theorem forall₂_block (packets : List (Nat × UInt8 × Bytes)) :
    List.Forall₂ Block packets (receivedBlocks packets) := by
  rw [receivedBlocks, List.forall₂_map_right_iff, List.forall₂_same]
  exact fun p _ => (fragments_packetRecords p.1 p.2.1 p.2.2).block

/-- The fragments of some packets are read to the end, and none is skipped. -/
theorem reads_packetRecords {packets : List (Nat × UInt8 × Bytes)}
    (h : ∀ p ∈ packets, p.1 < 65536) :
    let bytes := (packets.flatMap fun p =>
      packetRecords p.1 p.2.1 p.2.2.length p.2.2).flatMap recordBytes
    Reads bytes (receivedBlocks packets).flatten [] ∧ SkipsHeadersOnly bytes := by
  induction packets with
  | nil => exact ⟨.drained (by decide), .drained (by decide)⟩
  | cons p packets ih =>
      obtain ⟨hread, hskips⟩ := ih fun q hq => h q (List.mem_cons_of_mem _ hq)
      have hfragments := (fragments_packetRecords p.1 p.2.1 p.2.2).fragment
      have hr := h p (List.mem_cons_self ..)
      rw [receivedBlocks, List.map_cons, List.flatten_cons, List.flatMap_cons, List.flatMap_append]
      exact ⟨reads_fragments hfragments hr hread,
        skipsHeadersOnly_fragments hfragments hr hskips⟩

/-- **Writer and reader agree.**  What successful calls of `writePacket` put
on the wire, cut into reads in any way, reaches the callback as one block of
packets for each call, with nothing left over; and each record is a multiple
of eight bytes with at most seven of padding. -/
theorem handleRead_writePackets {σ : Type} {o : Owner σ} (ho : o.KeepsOpen) {s : σ}
    (hs : (o.socket s).state = .open) (hb : (o.socket s).inputBuffer = [])
    {packets : List (Nat × UInt8 × Bytes)} {w : PacketSocket}
    (hpackets : ∀ p ∈ packets, p.1 < 65536 ∧ p.2.2.length < 2 ^ 32)
    (hw : (writePackets packets w).exit = .ret false) {chunks : List Bytes}
    (hchunks : chunks.flatten = sentBytes (writePackets packets w).events) :
    (∃ blocks, List.Forall₂ Block packets blocks ∧
      (o.traced.feed chunks (s, [])).exit = .ret () ∧
      (o.traced.feed chunks (s, [])).state.2 = blocks.flatten ∧
      (o.socket (o.traced.feed chunks (s, [])).state.1).inputBuffer = []) ∧
    ∀ e ∈ (writePackets packets w).events, ∃ header content, e = .wrote header content ∧
      8 ∣ e.sent.length ∧ header.paddingLength.toNat ≤ 7 := by
  have hrun := writePackets_run hw
  rw [hrun, sentBytes_map_wroteEvent] at hchunks
  constructor
  · obtain ⟨hread, hskips⟩ := reads_packetRecords fun p hp => (hpackets p hp).1
    obtain ⟨ps, rest, hall⟩ := ReadsChunks.total [] chunks
    have hone := hall.reads (.drained (by decide)) (by rwa [List.nil_append, hchunks])
    rw [List.nil_append, hchunks] at hone
    obtain ⟨rfl, rfl⟩ := hone.unique hread
    have hopen : (o.socket s).state ≠ .closed := by
      rw [hs]
      decide
    have hfeed :
        ReadsChunks (o.socket s).inputBuffer chunks (receivedBlocks packets).flatten [] := by
      rw [hb]
      exact hall
    obtain ⟨hexit, hnoted, _, hleft⟩ := Owner.feed_reads ho [] hopen hfeed
    exact ⟨_, forall₂_block packets, hexit, hnoted, hleft⟩
  · intro e he
    rw [hrun] at he
    obtain ⟨q, hq, rfl⟩ := List.mem_map.mp he
    obtain ⟨p, _, hq⟩ := List.mem_flatMap.mp hq
    have hfragment := (fragments_packetRecords p.1 p.2.1 p.2.2).fragment q hq
    obtain ⟨_, height, hpadding⟩ := hfragment.length_recordBytes
    exact ⟨q.1, q.2, rfl, height, hpadding⟩

/-- A content of three bytes and an empty one, as two packets on the stdout stream. -/
def twoPackets : List (Nat × UInt8 × Bytes) :=
  [(1, fcgiStdout, [65, 66, 67]), (1, fcgiStdout, [])]

/-- The two packets, read in pieces of seven and of seventeen bytes. -/
theorem handleRead_writePackets_stdout : ∃ chunks : List Bytes, chunks.length = 2 ∧
    ∃ blocks, List.Forall₂ Block twoPackets blocks ∧
      (loneOwner.traced.feed chunks (PacketSocket.init [], [])).state.2 = blocks.flatten := by
  have hpackets : ∀ p ∈ twoPackets, p.1 < 65536 ∧ p.2.2.length < 2 ^ 32 := by decide
  have hw : (writePackets twoPackets (PacketSocket.init [])).exit = .ret false := by decide
  have hs : (loneOwner.socket (PacketSocket.init [])).state = .open := rfl
  have hb : (loneOwner.socket (PacketSocket.init [])).inputBuffer = [] := rfl
  generalize hbytes : sentBytes (writePackets twoPackets (PacketSocket.init [])).events = bytes
  have hchunks : [bytes.take 7, bytes.drop 7].flatten =
      sentBytes (writePackets twoPackets (PacketSocket.init [])).events := by
    rw [hbytes, List.flatten_cons, List.flatten_singleton, List.take_append_drop]
  obtain ⟨⟨blocks, hblocks, _, hnoted, _⟩, _⟩ :=
    handleRead_writePackets loneOwner_keepsOpen hs hb hpackets hw hchunks
  exact ⟨_, rfl, blocks, hblocks, hnoted⟩

end PacketSocket

end Santiago
