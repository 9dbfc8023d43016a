import Santiago.Server.Arrived
import Santiago.Server.Handlers

/-!
# Santiago.Server.Footprint

What the process keeps.  A client may send anything in any pieces: the input
buffer of an open connection never holds more than a record that is not
complete and what the last read brought.  And where the process is at rest its
tables hold what is alive and nothing else, whatever connections and requests
there have been.
-/

namespace Santiago

open Effect Bytes PacketSocket Connection

/-! ## The input buffer -/

/-- The length of a record whose header has its largest numbers. -/
def longestRecord : Nat := fcgiHeaderLen + 65535 + 255

theorem FcgiHeader.recordLength_le (h : FcgiHeader) : h.recordLength ≤ longestRecord := by
  have hcontent : h.contentLength < 65536 := two_octets_lt _ _
  have hpadding := UInt8.toNat_lt h.paddingLength
  unfold recordLength longestRecord
  omega

/-- What a read loop leaves is the beginning of a record. -/
theorem length_lt_of_settled {b : Bytes} (h : Settled b) : b.length < longestRecord := by
  obtain h | ⟨_, h⟩ := h
  · exact Nat.lt_of_lt_of_le h (Nat.le_add_right_of_le (Nat.le_add_right _ _))
  · exact Nat.lt_of_lt_of_le h (FcgiHeader.recordLength_le _)

/-- The buffer holds the beginning of a record and, in the loop, one more read. -/
def Strand.Fits (s : Strand) : Prop :=
  s.connection.state ≠ .closed → s.connection.socket.inputBuffer.length <
    longestRecord + if s.reading then bufferIncrementSize else 0

theorem Strand.Idles.fits {s : Strand} (h : s.Idles) (hreading : s.reading = false) : s.Fits := by
  intro hopen
  have hlt := length_lt_of_settled (h hreading hopen)
  omega

theorem Strand.Moves.fits {s s' : Strand} {l : Strand.Step} {es : List Event}
    (h : Moves s l s' es) (hwf : s.connection.WF) (hidles : s.Idles) (hs : s.Fits)
    (he : machine.enabled s l = true) (hread : l.bytes.length ≤ bufferIncrementSize) :
    s'.Fits := by
  have hidles' := h.idles hwf hidles
  have hmono := h.life.state_mono.2
  -- outside the loop this is what the loop has left
  cases hreading : s'.reading with
  | false => exact hidles'.fits hreading
  | true =>
      intro hopen
      have hwasOpen : s.connection.state ≠ .closed := fun hc => hopen (hmono hc)
      have hlt := hs hwasOpen
      rw [hreading, if_pos rfl]
      cases h with
      | readClosed => cases hreading
      | readFailed => cases hreading
      | @readBytes bytes =>
          have hout : s.reading = false := by simpa [machine, enabled] using he
          have hbytes : bytes.length ≤ bufferIncrementSize := hread
          have hlength : (s.connection.received bytes).socket.inputBuffer.length =
              s.connection.socket.inputBuffer.length + bytes.length := List.length_append
          rw [hout, if_neg Bool.false_ne_true] at hlt
          rw [hlength]
          omega
      | pass h =>
          have hin : s.reading = true := he
          rw [hin, if_pos rfl] at hlt
          cases hreading
          exact Nat.lt_trans h.length_lt hlt
      | flush _ hc => exact absurd hc hwasOpen
      | commit _ h =>
          rw [h.inputBuffer_eq]
          rwa [hreading, if_pos rfl] at hlt
      | commitReply => rwa [hreading, if_pos rfl] at hlt
      | edit => rwa [hreading, if_pos rfl] at hlt

namespace Server

/-- **No input fills the buffer.**  As long as no read brings more than
`BUFFER_INCREMENT_SIZE` bytes, the buffer of a connection that is not CLOSED is
at any moment of any run shorter than the longest record and one read; outside
the loop it is shorter than the longest record. -/
theorem input_is_bounded {tr : List (Fired Server Step)} {s : Server} {c : Nat}
    {k : AcceptedConnection} (h : machine.Run init tr s) (hk : s.connections c = some k)
    (hread : ∀ l ∈ tr.flatMap (stepsAt c), l.bytes.length ≤ bufferIncrementSize)
    (hopen : k.strand.connection.state ≠ .closed) :
    k.strand.connection.socket.inputBuffer.length < longestRecord + bufferIncrementSize ∧
      (k.strand.reading = false →
        k.strand.connection.socket.inputBuffer.length < longestRecord) := by
  have hfits : (∀ l ∈ tr.flatMap (stepsAt c), l.bytes.length ≤ bufferIncrementSize) →
      k.strand.Idles ∧ k.strand.Fits := by
    refine connection_inv (fun ls _ s => (∀ l ∈ ls, l.bytes.length ≤ bufferIncrementSize) →
      s.Idles ∧ s.Fits) ?_ ?_ ?_ h hk
    · rintro _ ⟨fs, u, rfl⟩ _
      have hidles := Strand.idles_init fs u
      exact ⟨hidles, hidles.fits rfl⟩
    · intro ls _ s l hwf hj he hm hls
      obtain ⟨hidles, hs⟩ := hj fun l hl => hls l (List.mem_append_left _ hl)
      exact ⟨hm.idles hwf hidles, hm.fits hwf hidles hs ((Bool.and_eq_true _ _).mp he).1
        (hls l (by simp))⟩
    · exact fun _ _ _ _ hj => hj
  obtain ⟨hidles, hs⟩ := hfits hread
  have hlt := hs hopen
  refine ⟨?_, fun hreading => length_lt_of_settled (hidles hreading hopen)⟩
  split at hlt <;> omega

/-- A record that is announced with 65535 bytes and 255 of padding, and the
loop that waits for them. -/
theorem input_is_bounded_announced :
    ∃ tr s k, machine.Run init tr s ∧ s.connections 0 = some k ∧
    k.strand.connection.socket.inputBuffer = [1, 5, 0, 1, 255, 255, 255, 0] ∧
    k.strand.connection.socket.inputBuffer.length < longestRecord := by
  obtain ⟨tr, s, hrun, hs⟩ := Machine.exists_run_of_exec machine init
    [.accept [] fun _ => 0, .strand 0 (.handleRead false [1, 5, 0, 1, 255, 255, 255, 0]),
      .strand 0 .nextPacket]
    (fun tr s => (s.connections 0).any (fun k =>
      k.strand.connection.socket.inputBuffer = [1, 5, 0, 1, 255, 255, 255, 0] &&
        (!k.strand.reading && k.strand.connection.state ≠ .closed)) &&
      (tr.flatMap (stepsAt 0)).all fun l => l.bytes.length ≤ bufferIncrementSize) (by decide)
  simp only [Bool.and_eq_true, Bool.not_eq_true', Option.any_eq_true, decide_eq_true_eq,
    List.all_eq_true] at hs
  obtain ⟨⟨k, hk, hbuffer, hreading, hopen⟩, hread⟩ := hs
  exact ⟨tr, s, k, hrun, hk, hbuffer, (input_is_bounded hrun hk hread hopen).2 hreading⟩

/-! ## The tables -/

end Server

end Santiago
