import Santiago.Strand

/-!
# Santiago.Rejected

Packets that `handleNewPacket` throws at.  A check in front of every action
makes a rejected packet harmless, and so it is for all of them but one: an
abort is answered before its id is looked up, so the answer to an abort of
nothing is on the wire when the exception comes, and an answer that fails has
closed the connection by then.
-/

namespace Santiago.Connection

open Effect Bytes PacketSocket RecordSocket

/-- The packet left no trace: the connection is what it was, with every entry,
its state and its socket, and nothing was written, stored, erased or reported.
The empty callback stands behind an erasure, so it was not called either. -/
def WithoutEffect (c : Connection) (r : Nat) (t : UInt8) (content : Bytes)
    (out : Outcome Event Connection Unit) : Prop :=
  out.state = c ∧ out.events = [.newPacket r t content]

/-- If the packet is rejected, it has no effect. -/
def RejectsCleanly (c : Connection) (r : Nat) (t : UInt8) (content : Bytes) : Prop :=
  ∀ what, (recordSocket.handleNewPacket false r t content c).exit = .throw what →
    c.WithoutEffect r t content (recordSocket.handleNewPacket false r t content c)

theorem handleNewPacket_run (c : Connection) (r : Nat) (t : UInt8) (content : Bytes) :
    recordSocket.handleNewPacket false r t content c =
      (recordSocket.dispatch r t content c).after [.newPacket r t content] := rfl

theorem dispatch_abort (c : Connection) (r : Nat) (content : Bytes) :
    recordSocket.dispatch r fcgiAbortRequest content c = recordSocket.handleAbortRequest r c := rfl

/-- Every packet but an abort that finds no entry or no socket is rejected cleanly. -/
theorem PacketEffect.without_effect {c : Connection} {r : Nat} {t : UInt8} {content : Bytes}
    {out : Outcome Event Connection Unit} {what : String} (h : PacketEffect c r t content out)
    (hexit : out.exit = .throw what) (habort : ¬ (t = fcgiAbortRequest ∧
      (c.data.requestMap[r]? = none ∨ c.socket.FailsAt 0))) :
    out.state = c ∧ out.events = [] := by
  cases h with
  | rejected => exact ⟨rfl, rfl⟩
  | abortUnknown ht _ hnone => exact absurd ⟨ht, .inl hnone⟩ habort
  | abortFailed ht _ hfails =>
      obtain ⟨n, hn⟩ := hfails
      rw [List.head?_eq_getElem?] at hn
      exact absurd ⟨ht, .inr ⟨fun j hj => absurd hj (Nat.not_lt_zero j), n, hn⟩⟩ habort
  | answered => cases hexit
  | answerFailed => cases hexit
  | began => cases hexit
  | beganLast => cases hexit
  | aborted => cases hexit
  | abortedLast => cases hexit
  | received => cases hexit
  | receivedReady => cases hexit
  | died => cases hexit

/-- An abort of nothing is answered before it is rejected. -/
theorem not_rejectsCleanly_of_none {c : Connection} (hs : c.socket.state ≠ .closed) {r : Nat}
    (content : Bytes) (hnone : c.data.requestMap[r]? = none) (htakes : c.socket.Takes 1) :
    ¬ c.RejectsCleanly r fcgiAbortRequest content := by
  intro h
  have hrun := ConnectionData.handleAbortRequest_run c.data r
  rw [hnone] at hrun
  have habort := onData_of_throw (c := c.withFaults (c.socket.writeFaults.drop 1)) hrun
  have hpacket := handleNewPacket_run c r fcgiAbortRequest content
  rw [dispatch_abort, handleAbortRequest_answered hs htakes, habort] at hpacket
  obtain ⟨_, hevents⟩ := h "abort requestId does not exist" (by rw [hpacket]; rfl)
  rw [hpacket] at hevents
  cases hevents

/-- An abort whose answer fails closes the connection before it is rejected. -/
theorem not_rejectsCleanly_of_failsAt {c : Connection} (hs : c.socket.state ≠ .closed)
    (hc : c.state ≠ .closed) (r : Nat) (content : Bytes) (hfails : c.socket.FailsAt 0) :
    ¬ c.RejectsCleanly r fcgiAbortRequest content := by
  intro h
  obtain ⟨part, habort⟩ := handleAbortRequest_failed (r := r) hs hc hfails
  have hpacket := handleNewPacket_run c r fcgiAbortRequest content
  rw [dispatch_abort, habort] at hpacket
  obtain ⟨_, hevents⟩ := h "abort requestId does not exist" (by rw [hpacket]; rfl)
  rw [hpacket] at hevents
  cases hevents

/-- **Rejected packets**, in every state of a connection that is not CLOSED: a
packet that throws has no effect, exactly when it is not an abort of an id
that is not in the map or an abort whose answer the socket fails. -/
theorem rejectsCleanly_iff {fs : List (Option Nat)} {u : Nat → BitVec 32}
    {tr : List (Fired Strand Strand.Step)} {s : Strand}
    (hrun : Strand.machine.Run (Strand.init fs u) tr s) (hc : s.connection.state ≠ .closed)
    (r : Nat) (t : UInt8) (content : Bytes) :
    s.connection.RejectsCleanly r t content ↔ ¬ (t = fcgiAbortRequest ∧
      (s.connection.data.requestMap[r]? = none ∨ s.connection.socket.FailsAt 0)) := by
  have hwf := Strand.wf_of_run hrun
  have hs : s.connection.socket.state ≠ .closed := fun hs => hc (hwf.mpr hs)
  constructor
  · intro h habort
    obtain ⟨ht, hcase⟩ := habort
    subst ht
    obtain htakes | ⟨k, hk, hfails⟩ := s.connection.socket.takes_or_failsAt 1
    · obtain hnone | hfails := hcase
      · exact not_rejectsCleanly_of_none hs content hnone htakes h
      · exact not_rejectsCleanly_of_failsAt hs hc r content hfails h
    · have hzero : k = 0 := by omega
      subst hzero
      exact not_rejectsCleanly_of_failsAt hs hc r content hfails h
  · intro habort what hexit
    have heffect := dispatch_effect hwf r t content
    rw [handleNewPacket_run] at hexit
    obtain ⟨hstate, hevents⟩ := heffect.without_effect hexit habort
    rw [WithoutEffect, handleNewPacket_run]
    exact ⟨hstate, by rw [Outcome.events_after, hevents]; rfl⟩

/-- Stdin for a request that nobody began. -/
theorem rejectsCleanly_iff_stdin :
    (Strand.init [] fun _ => 0).connection.RejectsCleanly 1 fcgiStdin [7] ↔
      ¬ (fcgiStdin = fcgiAbortRequest ∧
        ((Strand.init [] fun _ => 0).connection.data.requestMap[1]? = none ∨
          (Strand.init [] fun _ => 0).connection.socket.FailsAt 0)) :=
  rejectsCleanly_iff .nil (by decide) 1 fcgiStdin [7]

/-- A new connection gets an abort for request 1, which nobody began. -/
theorem abort_of_nothing_has_effect :
    ¬ ∀ (fs : List (Option Nat)) (u : Nat → BitVec 32) (tr : List (Fired Strand Strand.Step))
      (s : Strand), Strand.machine.Run (Strand.init fs u) tr s →
      s.connection.state ≠ .closed →
        ∀ r t content, s.connection.RejectsCleanly r t content := by
  intro h
  obtain ⟨_, hevents⟩ := h [] (fun _ => 0) [] _ .nil (by decide) 1 fcgiAbortRequest []
    "abort requestId does not exist" (by decide)
  revert hevents
  decide

end Santiago.Connection
