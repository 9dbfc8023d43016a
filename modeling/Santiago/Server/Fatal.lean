import Santiago.Server.Component
import Santiago.Server.Handlers

/-!
# Santiago.Server.Fatal

What ends the process.  `Fatal` lists the states in which a step throws out of
its task or fails an assertion, and `goes_on_iff` says that there are no others.
Most of the assertions of the source are never in danger; those of a connection
fail only on one that is CLOSED, and a connection is asked for something behind
its closing only where `AbortFails` has left it with records to dispatch.
-/

namespace Santiago

open Effect Bytes PacketSocket RecordSocket Connection

namespace Connection

/-! ## Packets that need an open connection -/

/-- The packet would be answered, or be stored and wind the connection down. -/
structure NeedsOpen (m : RequestMap) (r : Nat) (t : UInt8) (content : Bytes) : Prop where
  type_notMem : t ∉ [fcgiParams, fcgiStdin, fcgiData]
  begins : t = fcgiBeginRequest → FcgiBeginRequestBody.size ≤ content.length ∧
    ((FcgiBeginRequestBody.cast content).role = fcgiResponder →
      m[r]? = none ∧ ¬ KeepsConnection content)

/-- The packet completes a request. -/
inductive Completes (m : RequestMap) (r : Nat) (t : UInt8) (content : Bytes) : Prop
  | intro {e : Entry} {f : RequestState → RequestData → RequestState × RequestData} :
      Receives t content e f → m[r]? = some e →
      Entry.ready ⟨(f e.state e.data).1, e.ptr, (f e.state e.data).2⟩ = true →
      Completes m r t content

/-- An answer on a CLOSED connection runs into the assertion of `writePacket`,
before anything is written. -/
theorem answer_run_closed {c : Connection} (h : c.socket.state = .closed) (r : Nat) (t : UInt8)
    (b : Bytes) : recordSocket.answer r t b c =
      ⟨.abort "PacketSocket::writePacket: _state != CLOSED", c, []⟩ :=
  Act.bind_of_abort (writeBuffer_run_closed h r t b)

/-- The callback behind a stream packet fails no assertion. -/
theorem onData_stream_exit {x : Act Event ConnectionData (Option ConnectionData.Callback)}
    {c : Connection} {d : ConnectionData} {r : Nat}
    (h : x c.data = ⟨.ret (d.readyCallback r), d, []⟩) (w : String) :
    (onData x c).exit ≠ .abort w := by
  rw [onData_of_ret h, ConnectionData.readyCallback]
  split
  · simp [runCallback]
  · split <;> simp [runCallback]

/-- A stream packet that completes its request says so. -/
theorem onData_stream_ready {x : Act Event ConnectionData (Option ConnectionData.Callback)}
    {c : Connection} {r : Nat} {e : Entry}
    {f : RequestState → RequestData → RequestState × RequestData}
    (he : c.data.requestMap[r]? = some e)
    (hready : Entry.ready ⟨(f e.state e.data).1, e.ptr, (f e.state e.data).2⟩ = true)
    (h : x c.data = ⟨.ret ((c.data.modifyEntry r f).readyCallback r),
      c.data.modifyEntry r f, []⟩) :
    (onData x c).events = [.requestReady r e.ptr (f e.state e.data).2] := by
  have hentry : (c.data.modifyEntry r f).requestMap[r]? =
      some ⟨(f e.state e.data).1, e.ptr, (f e.state e.data).2⟩ := by
    rw [ConnectionData.getElem?_modifyEntry, if_pos rfl, he]
    rfl
  rw [onData_of_ret h]
  simp only [ConnectionData.readyCallback, hentry, hready, if_true]
  rfl

/-- `handleStdin` asserts nothing. -/
theorem handleStdin_exit (c : Connection) (r : Nat) (content : Bytes) (w : String) :
    (onData (ConnectionData.handleStdin r content) c).exit ≠ .abort w := by
  have hrun := ConnectionData.handleStdin_run c.data r content
  split at hrun
  · simp [onData_of_throw hrun]
  · split at hrun
    · simp [onData_of_throw hrun]
    · exact onData_stream_exit hrun w

/-- `handleParams` asserts nothing. -/
theorem handleParams_exit (c : Connection) (r : Nat) (content : Bytes) (w : String) :
    (onData (ConnectionData.handleParams r content) c).exit ≠ .abort w := by
  have hrun := ConnectionData.handleParams_run c.data r content
  split at hrun
  · simp [onData_of_throw hrun]
  · split at hrun
    · simp [onData_of_throw hrun]
    · exact onData_stream_exit hrun w

/-- A begin-request that fails an assertion was stored first. -/
theorem beginRequest_exit {c : Connection} {r : Nat} {content : Bytes} {w : String}
    (h : ((onData (ConnectionData.handleBeginRequest r) >>= fun _ =>
      Act.when ((FcgiBeginRequestBody.cast content).flags &&& fcgiKeepConn = 0)
        (handleTransceiverEvent .connectionWindDown)) c).exit = .abort w) :
    c.data.requestMap[r]? = none ∧ ¬ KeepsConnection content := by
  have hrun := ConnectionData.handleBeginRequest_run c.data r
  by_cases hid : c.data.requestMap[r]?.isSome
  · rw [if_pos hid] at hrun
    rw [Act.bind_of_throw (onData_of_throw hrun)] at h
    cases h
  · refine ⟨by simpa using hid, fun hkeep => ?_⟩
    rw [if_neg hid] at hrun
    have hbegin := onData_of_ret hrun
    simp only [runCallback, Act.pure_run, Outcome.after_mk, List.append_nil] at hbegin
    rw [Act.bind_of_ret hbegin, decide_eq_false hkeep] at h
    cases h

/-- A packet whose handlers run into an assertion is one that needs an open
connection. -/
theorem needsOpen_of_abort {c : Connection} {r : Nat} {t : UInt8} {content : Bytes} {w : String}
    (h : (recordSocket.dispatch r t content c).exit = .abort w) :
    NeedsOpen c.data.requestMap r t content := by
  unfold dispatch at h
  split at h
  · next ht => exact ⟨by rw [ht]; decide, fun hb => absurd (ht.symm.trans hb) (by decide)⟩
  split at h
  · next ht =>
      refine ⟨by rw [ht]; decide, fun _ => ?_⟩
      unfold RecordSocket.handleBeginRequest at h
      split at h
      · cases h
      · next hlen =>
          refine ⟨Nat.not_lt.mp hlen, fun hrole => ?_⟩
          dsimp only at h
          rw [if_neg (not_not_intro hrole)] at h
          exact beginRequest_exit h
  split at h
  · next ht => exact ⟨by rw [ht]; decide, fun hb => absurd (ht.symm.trans hb) (by decide)⟩
  split at h
  · exact absurd h (handleParams_exit c r content w)
  split at h
  · exact absurd h (handleStdin_exit c r content w)
  split at h
  · cases h
  · next hbegin _ hparams hstdin hdata =>
      exact ⟨by simp [hparams, hstdin, hdata], fun hb => absurd hb hbegin⟩

/-- On a CLOSED connection they fail an assertion. -/
theorem abort_of_needsOpen {c : Connection} (hwf : c.WF) (hc : c.state = .closed) {r : Nat}
    {t : UInt8} {content : Bytes} (h : NeedsOpen c.data.requestMap r t content) :
    ∃ w, (recordSocket.dispatch r t content c).exit = .abort w := by
  have hs := hwf.mp hc
  obtain ⟨hparams, hstdin, hdata⟩ :
    t ≠ fcgiParams ∧ t ≠ fcgiStdin ∧ t ≠ fcgiData := by
    simpa using h.type_notMem
  have hanswer : ∀ r' t' body, ∃ w, (recordSocket.answer r' t' body c).exit = .abort w :=
    fun r' t' body => ⟨_, by rw [answer_run_closed hs]⟩
  unfold dispatch
  split
  · exact hanswer ..
  split
  · next ht =>
      obtain ⟨hlen, hstored⟩ := h.begins ht
      unfold RecordSocket.handleBeginRequest
      rw [if_neg (Nat.not_lt.mpr hlen)]
      split
      · exact hanswer ..
      · next hrole =>
          obtain ⟨hnone, hkeep⟩ := hstored (not_not.mp hrole)
          have hrun := ConnectionData.handleBeginRequest_run c.data r
          rw [if_neg (by simp [hnone])] at hrun
          have hbegin := onData_of_ret hrun
          simp only [runCallback, Act.pure_run, Outcome.after_mk, List.append_nil] at hbegin
          refine ⟨"Connection::handleTransceiverEvent: _state != CLOSED", ?_⟩
          rw [beginRequestCallback_recordSocket, Act.bind_of_ret hbegin,
            decide_eq_true (not_not.mp hkeep), Act.when_true, transceiverEventCallback_recordSocket,
            handleTransceiverEvent_run_closed (c := { c with data := c.data.insertNew r }) hc]
          rfl
  split
  · exact ⟨_, by rw [handleAbortRequest, Act.bind_of_abort (answer_run_closed hs ..)]⟩
  · exact hanswer ..

/-- What a packet tells the acceptor. -/
theorem requestReady_mem_iff {c : Connection} (hwf : c.WF) {r : Nat} {t : UInt8} {content : Bytes} :
    (∃ r' ptr data,
      .requestReady r' ptr data ∈ (recordSocket.dispatch r t content c).events) ↔
      Completes c.data.requestMap r t content := by
  have heffect := dispatch_effect hwf r t content
  constructor
  · rintro ⟨r', ptr, data, hmem⟩
    generalize recordSocket.dispatch r t content c = o at heffect hmem
    cases heffect with
    | receivedReady hf he hready => exact ⟨hf, he, hready⟩
    | answered => simp [wroteEvent] at hmem
    | answerFailed => simp [failedWrite, wroteEvent, -List.map_take] at hmem
    | died _ _ hes => obtain rfl | rfl := hes <;> simp at hmem
    | _ => simp [wroteEvent] at hmem
  · rintro ⟨hf, he, hready⟩
    have hevents : ∃ e' data, (recordSocket.dispatch r t content c).events =
        [.requestReady r e' data] := by
      cases hf with
      | stdin ht hbit =>
          subst ht
          have hrun := ConnectionData.handleStdin_run c.data r content
          simp only [he, hbit, ne_eq, not_true_eq_false, if_false] at hrun
          exact ⟨_, _, onData_stream_ready he hready hrun⟩
      | params ht hbit =>
          subst ht
          have hrun := ConnectionData.handleParams_run c.data r content
          simp only [he, hbit, ne_eq, not_true_eq_false, if_false] at hrun
          exact ⟨_, _, onData_stream_ready he hready hrun⟩
    obtain ⟨ptr, data, hevents⟩ := hevents
    exact ⟨r, ptr, data, by rw [hevents]; exact List.mem_singleton_self _⟩

/-! ## One pass of the read loop -/

/-- A whole record is dispatched, and what becomes of the packet becomes of the pass. -/
theorem nextPacket_of_record {c : Connection} {h : FcgiHeader} {content : Bytes}
    (hn : NextRecord c.socket.inputBuffer h content) :
    ((∃ w, (owner.nextPacket c).exit = .abort w) ↔
      ∃ w, (recordSocket.dispatch h.requestId h.type content c).exit = .abort w) ∧
    (owner.nextPacket c).events = .newPacket h.requestId h.type content ::
      (recordSocket.dispatch h.requestId h.type content c).events := by
  have hconsume : ∀ (c : Connection) (n : Nat),
      owner.consume n c = ⟨.ret (), c.consumed n, []⟩ :=
    fun _ _ => rfl
  have hsocket : owner.socket c = c.socket := rfl
  obtain ⟨hlen, hcast, hv, hle, hcontent⟩ := hn
  simp only [Owner.nextPacket, Act.get_bind_run, hsocket, if_neg (Nat.not_lt.mpr hlen), hcast, hv,
    ne_eq, not_true_eq_false, if_false, if_neg (Nat.not_lt.mpr hle), hcontent]
  have hpacket : owner.newPacketCallback false h.requestId h.type content c =
      (recordSocket.dispatch h.requestId h.type content c).after
        [.newPacket h.requestId h.type content] := rfl
  rcases hdispatch : recordSocket.dispatch h.requestId h.type content c with ⟨exit, c', es⟩
  rw [hdispatch] at hpacket
  cases exit with
  | ret u =>
      rw [@Act.tryCatch_of_ret _ _ _ _ _ _ (c'.consumed h.recordLength)
        (decide (c'.socket.state ≠ .closed)) (.newPacket h.requestId h.type content :: es) ?_]
      · simp
      · rw [Act.bind_of_ret hpacket, Act.bind_of_ret (hconsume _ _)]
        simp only [Act.get_bind_run, Act.pure_run, Outcome.after_mk, List.append_nil,
          List.singleton_append]
        rfl
  | throw w =>
      rw [Act.tryCatch_of_throw (Act.bind_of_throw hpacket), Act.bind_of_ret (hconsume _ _)]
      simp
  | abort w =>
      rw [Act.tryCatch_of_abort (Act.bind_of_abort hpacket)]
      simp

/-- A pass of the read loop ends the process exactly when the connection is
CLOSED and the next record is one that needs it open. -/
theorem nextPacket_aborts_iff {c : Connection} (hwf : c.WF) :
    (∃ w, (owner.nextPacket c).exit = .abort w) ↔
      c.state = .closed ∧ ∃ h content, NextRecord c.socket.inputBuffer h content ∧
        NeedsOpen c.data.requestMap h.requestId h.type content := by
  constructor
  · intro habort
    have heffect := nextPacket_effect hwf
    obtain ⟨w, hw⟩ := id habort
    rcases hrun : owner.nextPacket c with ⟨exit, c', es⟩
    rw [hrun] at heffect hw
    obtain rfl : exit = .abort w := hw
    cases heffect with
    | died hn hpacket =>
        obtain ⟨_, hd⟩ := (nextPacket_of_record hn).1.mp habort
        exact ⟨hpacket.closed_of_abort.1, _, _, hn, needsOpen_of_abort hd⟩
  · rintro ⟨hc, h, content, hn, hneeds⟩
    exact (nextPacket_of_record hn).1.mpr (abort_of_needsOpen hwf hc hneeds)

/-- What a pass tells the acceptor. -/
theorem nextPacket_readies_iff {c : Connection} (hwf : c.WF) :
    (∃ r ptr data, .requestReady r ptr data ∈ (owner.nextPacket c).events) ↔
      ∃ h content, NextRecord c.socket.inputBuffer h content ∧
        Completes c.data.requestMap h.requestId h.type content := by
  have hrecord : ∀ {h content}, NextRecord c.socket.inputBuffer h content →
      ((∃ r ptr data, .requestReady r ptr data ∈ (owner.nextPacket c).events) ↔
        Completes c.data.requestMap h.requestId h.type content) := by
    intro h content hn
    rw [(nextPacket_of_record hn).2, ← requestReady_mem_iff hwf]
    simp
  constructor
  · intro hmem
    have heffect := nextPacket_effect hwf
    obtain ⟨r, ptr, data, he⟩ := id hmem
    generalize owner.nextPacket c = o at heffect he
    cases heffect with
    | handled hn => exact ⟨_, _, hn, (hrecord hn).mp hmem⟩
    | caught hn => exact ⟨_, _, hn, (hrecord hn).mp hmem⟩
    | died hn => exact ⟨_, _, hn, (hrecord hn).mp hmem⟩
    | _ => cases he
  · rintro ⟨h, content, hn, hcompletes⟩
    exact (hrecord hn).mpr hcompletes

/-! ## What a step does to the tasks of its strand -/

/-- Only a connection that closes has a task more. -/
theorem PacketEffect.closed_or_strand_eq {c c' : Connection} {r : Nat} {t : UInt8}
    {content : Bytes} {x : Exit Unit} {es : List Event}
    (h : PacketEffect c r t content ⟨x, c', es⟩) (hlive : ∀ w, x ≠ .abort w) :
    c'.state = .closed ∨ c'.socket.strand = c.socket.strand := by
  cases h with
  | answerFailed => exact .inl rfl
  | abortedLast => exact .inl rfl
  | abortFailed => exact .inl rfl
  | died => exact absurd rfl (hlive _)
  | _ => exact .inr rfl

/-- A pass posts nothing on the strand, unless it leaves the connection CLOSED. -/
theorem PassEffect.closed_or_strand_eq {c c' : Connection} {again : Bool} {es : List Event}
    (h : PassEffect c ⟨.ret again, c', es⟩) :
    c'.state = .closed ∨ c'.socket.strand = c.socket.strand := by
  cases h with
  | drained => exact .inr rfl
  | unsupported => exact .inr rfl
  | incomplete => exact .inr rfl
  | handled _ h => exact h.closed_or_strand_eq (by simp)
  | caught _ h => exact h.closed_or_strand_eq (by simp)

/-- A reply posts nothing on the strand, unless it leaves the connection CLOSED. -/
theorem CommitEffect.closed_or_strand_eq {c c' : Connection} {r ptr : Nat} {es : List Event}
    (h : CommitEffect c r ptr ⟨.ret (), c', es⟩) :
    c'.state = .closed ∨ c'.socket.strand = c.socket.strand := by
  cases h with
  | stale => exact .inr rfl
  | replied => exact .inr rfl
  | repliedLast => exact .inl rfl
  | replyFailed => exact .inl rfl

end Connection

/-! ## The strand of a connection -/

namespace Strand

/-- The step asks a CLOSED connection for what only an open one can do. -/
def NeedsOpen (s : Strand) : Step → Prop
  | .nextPacket => s.connection.state = .closed ∧
      ∃ h content, NextRecord s.connection.socket.inputBuffer h content ∧
        Connection.NeedsOpen s.connection.data.requestMap h.requestId h.type content
  | .runTask => s.connection.state = .closed ∧
      ∃ r ptr rest, s.connection.socket.strand = .commitReplyImpl r ptr :: rest ∧
        s.connection.data.isValidRequest r ptr = true
  | _ => False

/-- The step completes a request. -/
def Completes (s : Strand) : Step → Prop
  | .nextPacket => ∃ h content, NextRecord s.connection.socket.inputBuffer h content ∧
      Connection.Completes s.connection.data.requestMap h.requestId h.type content
  | _ => False

/-- A flush is queued by closing the socket, and nothing opens it again. -/
def FlushesClosed (s : Strand) : Prop :=
  .flushProtocolSocket ∈ s.connection.socket.strand → s.connection.state = .closed

theorem Starts.flushesClosed {s : Strand} (h : s.Starts) : s.FlushesClosed := by
  obtain ⟨fs, u, rfl⟩ := h
  intro hmem
  cases hmem

/-- Every step keeps it: a flush is posted by the close alone, and a CLOSED
connection stays so. -/
theorem Moves.flushesClosed {s s' : Strand} {l : Step} {es : List Event} (h : Moves s l s' es)
    (hs : s.FlushesClosed) : s'.FlushesClosed := by
  have hmono := h.life.state_mono.2
  intro hmem
  cases h with
  | readClosed hc => exact hc
  | readFailed => rfl
  | readBytes => exact hs hmem
  | pass hpass =>
      obtain hclosed | hstrand := hpass.closed_or_strand_eq
      · exact hclosed
      · exact hmono (hs (hstrand ▸ hmem))
  | flush _ hc => exact hc
  | commit htasks hcommit =>
      obtain hclosed | hstrand := hcommit.closed_or_strand_eq
      · exact hclosed
      · rw [hstrand] at hmem
        exact hmono (hs (htasks ▸ List.mem_cons_of_mem _ hmem))
  | commitReply => exact hs (by simpa [withStrand] using hmem)
  | edit => exact hs hmem

/-- What the tasks on a strand rely on: a socket to flush is CLOSED, and a
request to reply to has ended its input. -/
structure TasksWF (s : Strand) : Prop where
  flush : s.FlushesClosed
  reply : ∀ r ptr e, .commitReplyImpl r ptr ∈ s.connection.socket.strand →
    s.connection.data.requestMap[r]? = some e → e.ptr = ptr → e.ready = true

/-- The step is the pass of the read loop. -/
theorem act_nextPacket_pass {s : Strand} (hwf : s.connection.WF) :
    (machine.act .nextPacket s).events = (owner.nextPacket s.connection).events ∧
      ((∃ w, (machine.act .nextPacket s).exit = .abort w) ↔
        ∃ w, (owner.nextPacket s.connection).exit = .abort w) := by
  have heffect := nextPacket_effect hwf
  rcases hrun : owner.nextPacket s.connection with ⟨exit, c', es⟩
  cases exit with
  | ret again => rw [act_nextPacket s.reading hrun]; simp
  | throw w =>
      rw [hrun] at heffect
      cases heffect
  | abort w => rw [act_nextPacket_abort s.reading hrun]; simp

/-- An assertion of the connection fails in a step exactly when the step needs a
connection that is not CLOSED. -/
theorem aborts_iff {s : Strand} (hwf : s.connection.WF) (htasks : s.TasksWF) {l : Step}
    (he : machine.enabled s l = true) :
    (∃ w, (machine.act l s).exit = .abort w) ↔ s.NeedsOpen l := by
  have hends := ends hwf he
  cases l with
  | handleRead error bytes =>
      generalize machine.act (.handleRead error bytes) s = o at hends
      refine ⟨?_, False.elim⟩
      rintro ⟨w, hw⟩
      cases hends with
      | ret => cases hw
      | abort hdies => cases hdies
  | nextPacket => exact (act_nextPacket_pass hwf).2.trans (nextPacket_aborts_iff hwf)
  | runTask =>
      generalize machine.act .runTask s = o at hends
      constructor
      · rintro ⟨w, hw⟩
        cases hends with
        | ret => cases hw
        | abort hdies =>
            cases hdies with
            | flush hqueue hopen =>
                exact absurd (htasks.flush (hqueue ▸ List.mem_cons_self)) hopen
            | commit hqueue heffect =>
                cases heffect with
                | incomplete hentry hptr hbit =>
                    have hready := htasks.reply _ _ _ (hqueue ▸ List.mem_cons_self) hentry hptr
                    simp [Entry.ready, hbit] at hready
                | died hc hentry hptr =>
                    exact ⟨hc, _, _, _, hqueue,
                      ConnectionData.isValidRequest_iff.mpr ⟨_, hentry, hptr⟩⟩
      · rintro ⟨hc, r, ptr, rest, hqueue, hvalid⟩
        cases hends with
        | abort => exact ⟨_, rfl⟩
        | @ret s' es hm =>
            have heffect := hm.commit_of_head hqueue
            have hclosed : (withStrand s.connection rest).state = .closed := hc
            obtain ⟨c', reading⟩ := s'
            cases heffect with
            | stale hstale => exact absurd (hstale.symm.trans hvalid) Bool.false_ne_true
            | replied hopen => exact absurd hclosed hopen
            | repliedLast hclosing => exact absurd (hclosed.symm.trans hclosing) (by decide)
            | replyFailed hopen => exact absurd hclosed hopen
  | commitReply r ptr =>
      refine ⟨?_, False.elim⟩
      rintro ⟨w, hw⟩
      cases hw
  | edit r ptr change =>
      refine ⟨?_, False.elim⟩
      rintro ⟨w, hw⟩
      cases hw

/-- Only the read loop tells the acceptor of a request. -/
theorem Ends.eq_nextPacket {s : Strand} {l : Step} {o : Outcome Event Strand Unit}
    (h : Ends s l o) {r ptr : Nat} {data : RequestData}
    (hmem : .requestReady r ptr data ∈ o.events) : l = .nextPacket := by
  cases h with
  | abort hdies => exact absurd (hdies.isCallback hmem) (by simp [Event.isCallback])
  | ret hm =>
      obtain ⟨hquiet, _⟩ | ⟨_, _, _, _, _, _, _, _, _, _, hes⟩ |
        ⟨before, hquiet, hes, _⟩ :=
        hm.life.callbacks
      · exact absurd (hquiet _ hmem) (by simp [Event.isCallback])
      · exact (hm.nextRecord (hes ▸ List.mem_cons_self)).1
      · rw [hes, List.mem_append, List.mem_singleton] at hmem
        obtain hmem | hmem := hmem
        · exact absurd (hquiet _ hmem) (by simp [Event.isCallback])
        · cases hmem

/-- The request-ready callback is called in a step exactly when the step
completes a request. -/
theorem readies_iff {s : Strand} (hwf : s.connection.WF) {l : Step}
    (he : machine.enabled s l = true) :
    (∃ r ptr data, .requestReady r ptr data ∈ (machine.act l s).events) ↔ s.Completes l := by
  have hpass : (∃ r ptr data, .requestReady r ptr data ∈ (machine.act .nextPacket s).events) ↔
      s.Completes .nextPacket := by
    rw [(act_nextPacket_pass hwf).1]
    exact nextPacket_readies_iff hwf
  constructor
  · rintro ⟨r, ptr, data, hmem⟩
    obtain rfl := (ends hwf he).eq_nextPacket hmem
    exact hpass.mp ⟨r, ptr, data, hmem⟩
  · intro hcompletes
    cases l with
    | nextPacket => exact hpass.mpr hcompletes
    | _ => exact hcompletes.elim

/-- The steps that need an open connection are those of a CLOSED one. -/
theorem NeedsOpen.closed {s : Strand} {l : Step} (h : s.NeedsOpen l) :
    s.connection.state = .closed := by
  cases l with
  | nextPacket => exact h.1
  | runTask => exact h.1
  | _ => exact h.elim

end Strand

namespace Server

/-! ## What the tasks of a strand rely on -/

/-- The tasks of every strand of every reachable server are well-formed. -/
theorem tasksWF_of_run {tr : List (Fired Server Step)} {s : Server} (h : machine.Run init tr s)
    {c : Nat} {k : AcceptedConnection} (hk : s.connections c = some k) : k.strand.TasksWF := by
  have hsound := (invariant_of_run h).sound
  constructor
  case flush =>
    exact connection_inv (fun _ _ t => t.FlushesClosed) (fun _ hstart => hstart.flushesClosed)
      (fun _ _ _ _ _ hj _ hm => hm.flushesClosed hj) (fun _ _ _ _ hj => hj) h hk
  case reply =>
    intro r ptr e hmem he hptr
    -- the queued reply is a custodian of the object
    have hholds : s.custody.Holds ptr (.reply c r) := by
      show (r, ptr) ∈ s.custody.replies c
      rw [replies_custody hk]
      exact mem_replies.mpr hmem
    have hstored : s.custody.entry c r = some (ptr, e.ready) := by
      rw [entry_custody hk, stored, he, ← hptr]
      rfl
    exact hsound.ready_of_holds _ _ _ _ _ hholds hstored

/-! ## How a step of a strand ends -/

/-- The callbacks of a step go through unless one tells the acceptor of a
request on a connection that it has erased. -/
theorem exit_runCallbacks_iff {s : Server} (hwf : s.WF) {c : Nat} {k : AcceptedConnection}
    (hk : s.connections c = some k) {l : Strand.Step} {t : Strand} {es : List Event}
    (hm : Strand.Moves (k.strand.allocateFrom s.nextAddress) l t es) :
    (runCallbacks c k.connectionId es (s.setStrand c k.connectionId t)).exit = .ret () ↔
      ¬ (s.activeConnections k.connectionId = none ∧
        ∃ r ptr data, .requestReady r ptr data ∈ es) := by
  have hsame : (s.setStrand c k.connectionId t).activeConnections = s.activeConnections := rfl
  obtain ⟨hquiet, _⟩ | ⟨r, ty, content, e, f, _, _, _, _, _, rfl⟩ |
      ⟨before, hquiet, rfl, hopen, _⟩ := hm.life.callbacks
  · rw [runCallbacks_quiet hquiet]
    refine iff_of_true rfl ?_
    rintro ⟨_, r, ptr, data, hmem⟩
    exact absurd (hquiet _ hmem) (by simp [Event.isCallback])
  · have hcb : runCallbacks c k.connectionId
        [.newPacket r ty content, .requestReady r e.ptr (f e.state e.data).2] =
        (acceptorHandleNewRequest c k.connectionId r e.ptr >>= fun _ => pure ()) := rfl
    have hnew := acceptorHandleNewRequest_run c k.connectionId r e.ptr
      (s.setStrand c k.connectionId t)
    rw [hsame] at hnew
    cases ha : s.activeConnections k.connectionId with
    | none =>
        rw [ha] at hnew
        rw [hcb, Act.bind_of_abort hnew]
        simp
    | some active =>
        rw [ha] at hnew
        rw [hcb, Act.bind_of_ret hnew]
        simp
  · have hactive := hwf.active_of_open c k hk hopen
    have hclose := handleConnectionClose_run k.connectionId (s.setStrand c k.connectionId t)
    rw [hsame, hactive, Option.isSome_some, if_pos rfl] at hclose
    have hlast : runCallbacks c k.connectionId [.closeCallback] =
        (handleConnectionClose k.connectionId >>= fun _ => pure ()) := rfl
    rw [runCallbacks_append c k.connectionId hquiet, hlast, Act.bind_of_ret hclose]
    simp [hactive]

/-- A step of a strand goes on unless the connection fails an assertion, or
tells the acceptor of a request after the acceptor has erased it. -/
theorem exit_strand_iff {s : Server} (hwf : s.WF) {c : Nat} {k : AcceptedConnection}
    (hk : s.connections c = some k) (htasks : k.strand.TasksWF) {l : Strand.Step}
    (he : machine.enabled s (.strand c l) = true) :
    (machine.act (.strand c l) s).exit = .ret () ↔
      ¬ k.strand.NeedsOpen l ∧
        ¬ (s.activeConnections k.connectionId = none ∧ k.strand.Completes l) := by
  obtain ⟨k', hk', hstep⟩ := enabled_strand he
  rw [hk, Option.some.injEq] at hk'
  subst hk'
  have hwfk := allocateFrom_wf (hwf.connection_wf c k hk) s.nextAddress
  have haborts : _ ↔ k.strand.NeedsOpen l :=
    Strand.aborts_iff hwfk ⟨htasks.flush, htasks.reply⟩ hstep
  have hreadies : _ ↔ k.strand.Completes l := Strand.readies_iff hwfk hstep
  rw [← haborts, ← hreadies]
  have hends := Strand.ends hwfk hstep
  rcases hact : Strand.machine.act l (k.strand.allocateFrom s.nextAddress) with ⟨x, t, es⟩
  rw [hact] at hends
  have hrun : machine.act (.strand c l) s =
      ((runCallbacks c k.connectionId es >>= fun _ => Act.exit x)
        (s.setStrand c k.connectionId t)).after (es.map fun e => (c, e)) :=
    strandStep_run hk hact
  cases hends with
  | abort hdies =>
      rw [hrun, Act.bind_of_ret (runCallbacks_quiet (fun _ => hdies.isCallback) _)]
      simp
  | ret hm =>
      have hcallbacks := exit_runCallbacks_iff hwf hk hm
      rw [hrun, Act.bind_run]
      rcases hcb : runCallbacks c k.connectionId es (s.setStrand c k.connectionId t) with
        ⟨exit, s', es'⟩
      rw [hcb] at hcallbacks
      rw [← hcallbacks]
      cases exit <;> simp

/-! ## What ends the process -/

/-- The acceptor would give a new connection an id that is in use. -/
def IdInUse (s : Server) (l : Step) : Prop :=
  (∃ fs u, l = .accept fs u) ∧ (s.activeConnections s.nextConnectionId).isSome

/-- Everything that ends the process: the state before the step, and the step. -/
inductive Fatal (s : Server) (l : Step) : Prop
  | idInUse : s.IdInUse l → Fatal s l
  | connectionClosed {c : Nat} {k : AcceptedConnection} {l' : Strand.Step} : l = .strand c l' →
      s.connections c = some k → k.strand.NeedsOpen l' → Fatal s l
  | connectionErased {c : Nat} {k : AcceptedConnection} {l' : Strand.Step} : l = .strand c l' →
      s.connections c = some k → s.activeConnections k.connectionId = none →
      k.strand.Completes l' → Fatal s l
  | requestGone : s.RequestGone l → Fatal s l
  | handlerTaken : s.HandlerTaken l → Fatal s l

/-- For a step of a strand two of the causes are left: the connection is CLOSED,
or it is erased and the step completes a request. -/
theorem fatal_strand_iff {s : Server} {c : Nat} {k : AcceptedConnection}
    (hk : s.connections c = some k) (l : Strand.Step) :
    s.Fatal (.strand c l) ↔ k.strand.NeedsOpen l ∨
      s.activeConnections k.connectionId = none ∧ k.strand.Completes l := by
  constructor
  · intro hfatal
    cases hfatal with
    | idInUse hused =>
        obtain ⟨⟨fs, u, hl⟩, _⟩ := hused
        cases hl
    | connectionClosed hl hk' hneeds =>
        cases hl
        rw [hk, Option.some.injEq] at hk'
        subst hk'
        exact .inl hneeds
    | connectionErased hl hk' ha hcompletes =>
        cases hl
        rw [hk, Option.some.injEq] at hk'
        subst hk'
        exact .inr ⟨ha, hcompletes⟩
    | requestGone hgone => exact hgone.elim
    | handlerTaken htaken =>
        obtain ⟨_, _, _, _, _, hl, _⟩ := htaken
        cases hl
  · intro h
    obtain hneeds | ⟨ha, hcompletes⟩ := h
    · exact .connectionClosed rfl hk hneeds
    · exact .connectionErased rfl hk ha hcompletes

/-! ### Steps of the acceptor and of the users -/

/-- An id in use ends the process: the accept runs into its assertion. -/
theorem IdInUse.exit_ne_ret {s : Server} {l : Step} (h : s.IdInUse l) :
    (machine.act l s).exit ≠ .ret () := by
  obtain ⟨⟨fs, u, rfl⟩, hused⟩ := h
  obtain ⟨c, hc⟩ := Option.isSome_iff_exists.mp hused
  have hrun : machine.act (.accept fs u) s = _ := handleAccept_of_some hc fs u
  simp [hrun]

/-- A request that is gone ends the process: an exception leaves the step, or an
assertion fails. -/
theorem RequestGone.exit_ne_ret {s : Server} (hi : s.Invariant) {l : Step}
    (he : machine.enabled s l = true) (h : s.RequestGone l) :
    (machine.act l s).exit ≠ .ret () := by
  obtain ⟨w, hw⟩ | hw := (breaks_iff hi he).mpr h
  · simp [hw]
  · simp [hw]

/-- An id whose handler is stored fails the assertion. -/
theorem HandlerTaken.exit_ne_ret {s : Server} (hi : s.Invariant) (hh : s.HandlersWF) {l : Step}
    (h : s.HandlerTaken l) : (machine.act l s).exit ≠ .ret () := by
  obtain ⟨q, rq, rest, q', rq', rfl, htasks, hq, hstored, hq', hid, howned⟩ := h
  obtain ⟨ptr, hg⟩ :=
    (grants_iff_isStored hi hq (.inl (phase_of_task hi htasks hq))).mpr hstored
  have hhandler : s.activeRequestHandlers rq.getId = some q' := by
    obtain hheld | htask := howned
    · rw [← hid]
      exact hh.held q' rq' hq' hheld
    · exact handler_of_task hh htask
  have hrun : machine.act (.acceptorTask true) s = _ :=
    acceptorTask_taken htasks hq hg (by rw [hhandler]; rfl)
  simp [hrun]

/-- Outside the strands of the connections nothing else ends the process. -/
theorem cause_of_exit {s : Server} (hi : s.Invariant) (hh : s.HandlersWF) {l : Step}
    (he : machine.enabled s l = true) (hl : ∀ c l', l ≠ .strand c l')
    (hexit : (machine.act l s).exit ≠ .ret ()) :
    s.IdInUse l ∨ s.RequestGone l ∨ s.HandlerTaken l := by
  have hends := ends hi.wf he
  rcases hact : machine.act l s with ⟨x, s', es⟩
  rw [hact] at hends hexit
  cases hends with
  | ret => exact absurd rfl hexit
  | lost => exact .inr (.inl ((breaks_iff hi he).mp (.inl ⟨_, by rw [hact]⟩)))
  | abort hdies =>
      cases hdies with
      | accept hused => exact .inl ⟨⟨_, _, rfl⟩, hused⟩
      | strand => exact absurd rfl (hl _ _)
      | ready => exact absurd rfl (hl _ _)
      | closeConnection htasks ha =>
          have hclosed := (hi.wf.isClosed_of_task htasks).1
          simp [isClosed, ha] at hclosed
      | handlerExists =>
          refine .inr (.inr ?_)
          by_contra hfree
          exact ((handlersMatch_iff_step hi hh he).mpr hfree).free (by rw [hact])
      | handlerMissing htasks hnone =>
          have hhandler := handler_of_task hh (htasks ▸ List.mem_cons_self)
          rw [hnone] at hhandler
          cases hhandler
      | destroyValid => exact .inr (.inl ((breaks_iff hi he).mp (.inr (by rw [hact]))))

/-- A step goes on exactly if it is not one that `Fatal` lists. -/
theorem exit_iff_not_fatal {s : Server} (hi : s.Invariant) (hh : s.HandlersWF)
    (htasks : ∀ c k, s.connections c = some k → k.strand.TasksWF) {l : Step}
    (he : machine.enabled s l = true) : (machine.act l s).exit = .ret () ↔ ¬ s.Fatal l := by
  by_cases hl : ∃ c l', l = .strand c l'
  · obtain ⟨c, l', rfl⟩ := hl
    obtain ⟨k, hk, _⟩ := enabled_strand he
    rw [exit_strand_iff hi.wf hk (htasks c k hk) he, fatal_strand_iff hk, not_or]
  · constructor
    · intro hret hfatal
      cases hfatal with
      | idInUse hused => exact hused.exit_ne_ret hret
      | connectionClosed heq => exact hl ⟨_, _, heq⟩
      | connectionErased heq => exact hl ⟨_, _, heq⟩
      | requestGone hgone => exact hgone.exit_ne_ret hi he hret
      | handlerTaken htaken => exact htaken.exit_ne_ret hi hh hret
    · intro hfatal
      by_contra hexit
      obtain hused | hgone | htaken :=
        cause_of_exit hi hh he (fun c l' heq => hl ⟨c, l', heq⟩) hexit
      · exact hfatal (.idInUse hused)
      · exact hfatal (.requestGone hgone)
      · exact hfatal (.handlerTaken htaken)

/-! ### Connections that close once -/

end Server

/-- A final connection is asked for nothing that needs it open. -/
theorem Strand.Final.not_needsOpen {k : Strand} (h : k.Final) {l : Strand.Step}
    (he : Strand.machine.enabled k l = true) : ¬ k.NeedsOpen l := by
  intro hneeds
  obtain ⟨hempty, hnothing⟩ := h hneeds.closed
  cases l with
  | nextPacket =>
      obtain ⟨_, h, content, hn, _⟩ := hneeds
      exact hnothing he (.next hn)
  | runTask =>
      obtain ⟨_, r, ptr, rest, _, hvalid⟩ := hneeds
      obtain ⟨e, hentry, _⟩ := ConnectionData.isValidRequest_iff.mp hvalid
      simp [hempty] at hentry
  | _ => exact hneeds.elim

/-- A connection without requests completes none. -/
theorem Strand.not_completes_of_empty {k : Strand} (h : k.connection.data.requestMap = ∅)
    (l : Strand.Step) : ¬ k.Completes l := by
  intro hcompletes
  cases l with
  | nextPacket =>
      obtain ⟨header, content, _, _, hentry, _⟩ := hcompletes
      simp [h] at hentry
  | _ => exact hcompletes.elim

namespace Server

/-- Connections that are final when they are CLOSED end no process. -/
theorem Fatal.cause {t : List (Nat × Event)} {s : Server} {l : Step} (h : s.Fatal l)
    (hfinal : FinalAll t s) (hwf : s.WF) (he : machine.enabled s l = true) :
    s.IdInUse l ∨ s.RequestGone l ∨ s.HandlerTaken l := by
  cases h with
  | idInUse hused => exact .inl hused
  | @connectionClosed c k l' hl hk hneeds =>
      subst hl
      obtain ⟨k', hk', hstep⟩ := enabled_strand he
      rw [hk, Option.some.injEq] at hk'
      subst hk'
      have hc := hfinal c
      rw [hk] at hc
      exact absurd hneeds (hc.1.not_needsOpen (by cases l' <;> exact hstep))
  | @connectionErased c k l' hl hk ha hcompletes =>
      have hc := hfinal c
      rw [hk] at hc
      -- an open connection is still in the acceptor's table
      have hclosed : k.strand.connection.state = .closed := by
        by_contra hopen
        rw [hwf.active_of_open c k hk hopen] at ha
        cases ha
      exact absurd hcompletes (Strand.not_completes_of_empty (hc.1 hclosed).1 l')
  | requestGone hgone => exact .inr (.inl hgone)
  | handlerTaken htaken => exact .inr (.inr htaken)

/-- **What ends the process.**  After every run, a step goes on exactly if it is
not one that `Fatal` lists; every other exception stays in its task, and every
other assertion holds.  Where no abort was answered on a failing socket with
more to dispatch behind it, no connection is to blame: the id of a connection
is in use, a request is gone, or its handler is taken. -/
theorem goes_on_iff {tr : List (Fired Server Step)} {s : Server} {l : Step}
    (h : machine.Run init tr s) (he : machine.enabled s l = true) :
    ((machine.act l s).exit = .ret () ↔ ¬ s.Fatal l) ∧
      ((∀ f ∈ tr, ¬ f.pre.AbortFails f.label) → s.Fatal l →
        s.IdInUse l ∨ s.RequestGone l ∨ s.HandlerTaken l) := by
  have hi := invariant_of_run h
  refine ⟨exit_iff_not_fatal hi (handlersWF_of_run h) (fun _ _ hk => tasksWF_of_run h hk) he,
    fun hf hfatal => ?_⟩
  have hfinal := (inv (fun s l => ¬ s.AbortFails l) FinalAll (fun _ => rfl)
    (fun _ _ _ hi hj he hf hm => hj.step hm hi.wf he hf) h hf).2
  exact hfatal.cause hfinal hi.wf he

/-- Two aborts in one read, and the answer to the first cannot be written: the
loop goes on, and the second is to be answered on a CLOSED connection. -/
theorem goes_on_iff_aborts : ∃ tr s, machine.Run init tr s ∧
    machine.enabled s (.strand 0 .nextPacket) = true ∧ s.Fatal (.strand 0 .nextPacket) := by
  obtain ⟨tr, s, hrun, hs⟩ := Machine.exists_run_of_exec machine init
    [.accept [some 0] fun _ => 0, .strand 0 (.handleRead false
      ([1, 2, 0, 1, 0, 0, 0, 0] ++ [1, 2, 0, 1, 0, 0, 0, 0])), .strand 0 .nextPacket]
    (fun _ s => machine.enabled s (.strand 0 .nextPacket) &&
      decide ((machine.act (.strand 0 .nextPacket) s).exit ≠ .ret ())) (by decide)
  rw [Bool.and_eq_true, decide_eq_true_eq] at hs
  refine ⟨tr, s, hrun, hs.1, ?_⟩
  by_contra hfatal
  exact hs.2 ((goes_on_iff hrun hs.1).1.mpr hfatal)

end Server

end Santiago
