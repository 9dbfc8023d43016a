import Santiago.Replies

/-!
# Santiago.Closed

A connection that is CLOSED.  The loop of `handleRead` asks for the state
behind a packet that was handled, but not behind one whose exception it
caught, and an abort whose answer cannot be written closes the connection
and then throws.  `AbortFails` is that step, with something left in the
buffer to go on with; every other step that closes a connection leaves it
with nothing more to do.
-/

namespace Santiago

open Effect Bytes PacketSocket Connection

/-- The loop of `handleRead`, left to itself, gets to a record it dispatches. -/
inductive Dispatches : Bytes → Prop
  | next {buffer content : Bytes} {h : FcgiHeader} : NextRecord buffer h content →
      Dispatches buffer
  | skip {buffer : Bytes} {h : FcgiHeader} : fcgiHeaderLen ≤ buffer.length →
      FcgiHeader.cast buffer = h → h.version ≠ fcgiVersion1 →
      Dispatches (buffer.drop h.recordLength) → Dispatches buffer

namespace Strand

/-- The step answers an abort on a socket that fails, with more to dispatch behind it. -/
def AbortFails (s : Strand) (l : Step) : Prop :=
  l = .nextPacket ∧ s.connection.state ≠ .closed ∧
    (∃ n, s.connection.socket.writeFaults.head? = some (some n)) ∧
    ∃ h content, NextRecord s.connection.socket.inputBuffer h content ∧
      h.type = fcgiAbortRequest ∧
      Dispatches (s.connection.socket.inputBuffer.drop h.recordLength)

/-- A CLOSED connection has no request, and no record to dispatch. -/
def Final (s : Strand) : Prop :=
  s.connection.state = .closed → s.connection.data.requestMap = ∅ ∧
    (s.reading = true → ¬ Dispatches s.connection.socket.inputBuffer)

theorem final_init (fs : List (Option Nat)) (u : Nat → BitVec 32) : (init fs u).Final := by
  intro hc
  simp [init, Connection.start, Connection.init, setSocket] at hc

/-- A step that closes a connection leaves it final. -/
theorem Moves.final_of_open {s s' : Strand} {l : Step} {es : List Event} (h : Moves s l s' es)
    (hwf : s.connection.WF) (hopen : s.connection.state ≠ .closed)
    (he : machine.enabled s l = true) (hf : ¬ s.AbortFails l) : s'.Final := by
  intro hclosed
  have hempty : s'.connection.data.requestMap = ∅ := by
    obtain ⟨_, hst⟩ | ⟨_, _, _, _, _, _, _, _, hst, _⟩ | ⟨_, _, _, _, _, hempty⟩ :=
      h.life.callbacks
    · exact absurd (hst hclosed) hopen
    · exact absurd (hst ▸ hclosed) hopen
    · exact hempty
  refine ⟨hempty, fun hreading => ?_⟩
  have hwf' := h.wf hwf
  cases h with
  | readClosed hc => exact absurd hc hopen
  | readFailed => cases hreading
  | readBytes => exact absurd hclosed hopen
  | @pass again c' es hpass =>
      cases again with
      | false => cases hreading
      | true =>
          generalize hx : Exit.ret true = x at hpass
          cases hpass with
          | drained => cases hx
          | unsupported => exact absurd hclosed hopen
          | incomplete => cases hx
          | handled _ h =>
              have hs := hwf'.mp hclosed
              simp only [Exit.ret.injEq, eq_comm (a := true), decide_eq_true_eq] at hx
              exact absurd hs hx
          | caught hn h =>
              cases h with
              | rejected => exact absurd hclosed hopen
              | abortUnknown _ hc => exact absurd hclosed hopen
              | abortFailed ht _ hfault =>
                  intro hd
                  exact hf ⟨rfl, hopen, hfault, _, _, hn, ht, by simpa using hd⟩
          | died => cases hx
  | flush _ hc => exact absurd hc hopen
  | commit htasks =>
      simp only [machine, enabled, Bool.and_eq_true, Bool.not_eq_true'] at he
      exact absurd (he.1.symm.trans hreading) (by simp)
  | commitReply => exact absurd hclosed hopen
  | edit => exact absurd hclosed hopen

/-- A final connection stays final, and does nothing that anyone sees. -/
theorem Moves.final_of_closed {s s' : Strand} {l : Step} {es : List Event} (h : Moves s l s' es)
    (hf : s.Final) (hclosed : s.connection.state = .closed)
    (he : machine.enabled s l = true) : s'.Final ∧ s'.connection.state = .closed ∧ es = [] := by
  obtain ⟨hempty, hnone⟩ := hf hclosed
  have hnotRecord : ∀ {header content}, s.reading = true →
      ¬ NextRecord s.connection.socket.inputBuffer header content :=
    fun hr hn => hnone hr (.next hn)
  have hstale : ∀ {r : Nat} {e : Entry}, s.connection.data.requestMap[r]? ≠ some e := by
    simp [hempty]
  cases h with
  | readClosed => exact ⟨fun _ => ⟨hempty, nofun⟩, hclosed, rfl⟩
  | readFailed hc => exact absurd hclosed hc
  | readBytes hc => exact absurd hclosed hc
  | pass hpass =>
      have hreading : s.reading = true := he
      cases hpass with
      | drained => exact ⟨fun _ => ⟨hempty, nofun⟩, hclosed, rfl⟩
      | unsupported hlen hcast hv =>
          refine ⟨fun _ => ⟨hempty, fun _ hd => ?_⟩, hclosed, rfl⟩
          exact hnone hreading (.skip hlen hcast hv hd)
      | incomplete => exact ⟨fun _ => ⟨hempty, nofun⟩, hclosed, rfl⟩
      | handled hn => exact absurd hn (hnotRecord hreading)
      | caught hn => exact absurd hn (hnotRecord hreading)
  | flush =>
      have hidle : s.reading = false := by
        simp only [machine, enabled, Bool.and_eq_true, Bool.not_eq_true'] at he
        exact he.1
      exact ⟨fun _ => ⟨hempty, fun hr => absurd (hidle.symm.trans hr)
        (by simp)⟩, hclosed, rfl⟩
  | commit _ h =>
      have hidle : s.reading = false := by
        simp only [machine, enabled, Bool.and_eq_true, Bool.not_eq_true'] at he
        exact he.1
      cases h with
      | stale =>
          exact ⟨fun _ => ⟨hempty, fun hr => absurd (hidle.symm.trans hr)
            (by simp)⟩, hclosed, rfl⟩
      | replied _ he => exact absurd he hstale
      | repliedLast _ he => exact absurd he hstale
      | replyFailed _ he => exact absurd he hstale
  | commitReply => exact ⟨fun _ => ⟨hempty, fun hr => hnone hr⟩, hclosed, rfl⟩
  | @edit r ptr change =>
      have hsame : s.connection.data.edit r ptr change = s.connection.data := by
        have hinvalid : s.connection.data.isValidRequest r ptr = false := by
          simp [ConnectionData.isValidRequest, hempty]
        rw [ConnectionData.edit, hinvalid]
        rfl
      rw [hsame]
      exact ⟨fun _ => ⟨hempty, fun hr => hnone hr⟩, hclosed, rfl⟩

/-- A final connection fails none of the assertions that it is not CLOSED. -/
theorem Dies.notMem_of_final {s : Strand} {l : Step} {w : String} {es : List Event}
    (h : Dies s l w es) (hf : s.Final) (he : machine.enabled s l = true) :
    w ∉ closedAssertions := by
  have hdies : ∀ {r ptr : Nat} {rest : List StrandTask} {c' : Connection} {es : List Event},
      CommitEffect (withStrand s.connection rest) r ptr ⟨.abort w, c', es⟩ →
      w ∉ closedAssertions := by
    intro r ptr rest c' es h
    cases h with
    | incomplete => simp [closedAssertions]
    | died hc he =>
        have hentry : s.connection.data.requestMap[r]? = some _ := he
        rw [(hf hc).1] at hentry
        simp at hentry
  cases h with
  | pass hpass =>
      cases hpass with
      | died hn h => exact absurd (.next hn) ((hf h.closed_of_abort.1).2 he)
  | flush => simp [closedAssertions]
  | commit _ h => exact hdies h

end Strand

end Santiago
