import Santiago.Lengths
import Santiago.Lib.Blocks
import Santiago.ReplyWire
import Santiago.RequestLife

/-!
# Santiago.Output

Everything a connection ever puts on its socket.  A packet that is answered
gets its answer in one block of records, and so does a committed request; the
blocks of a whole run stand one behind the other in the order in which they
were asked for, and only the last of them may be broken off, by the write that
fails and closes the connection.

The byte counts come first: what a failing write leaves on the wire is the
beginning of its record.
-/

namespace Santiago

open Effect Bytes PacketSocket RecordSocket Connection Blocks

/-- What events in a row put on the wire. -/
theorem sentBytes_append (es es' : List Event) :
    sentBytes (es ++ es') = sentBytes es ++ sentBytes es' :=
  List.flatMap_append

theorem sentBytes_cons (e : Event) (es : List Event) :
    sentBytes (e :: es) = e.sent ++ sentBytes es :=
  List.flatMap_cons

@[simp] theorem sentBytes_nil : sentBytes [] = [] := rfl

/-! ## What a failing write leaves on the wire -/

/-- A failing write leaves the beginning of its record. -/
theorem asioWrite_fail (p : FcgiHeader × Bytes) {s : PacketSocket} {n : Nat}
    (h : s.writeFaults.head? = some (some n)) : asioWrite p.1 p.2 s =
      ⟨.ret true, s.withFaults s.writeFaults.tail, [.writeError ((recordBytes p).take n)]⟩ := by
  simp [asioWrite, h, PacketSocket.withFaults, recordBytes, wroteEvent, Event.sent]

/-- Records that go out are put on the wire in their order, at least some of
their bytes. -/
theorem sentBytes_writeRecords (ps : List (FcgiHeader × Bytes)) (s : PacketSocket) :
    sentBytes (writeRecords ps s).events <+: ps.flatMap recordBytes := by
  induction ps generalizing s with
  | nil => exact List.prefix_rfl
  | cons p ps ih =>
      rw [List.flatMap_cons]
      by_cases hn : ∃ n, s.writeFaults.head? = some (some n)
      · obtain ⟨n, hn⟩ := hn
        rw [writeRecords, Act.bind_of_ret (asioWrite_fail p hn)]
        simp only [if_true, Act.bind_of_ret (close_run _), Act.pure_run, Outcome.after_mk,
          List.append_nil, sentBytes_cons, Event.sent, sentBytes_nil]
        exact (List.take_prefix n _).trans (List.prefix_append _ _)
      · rw [writeRecords_cons_ok p ps fun n h => hn ⟨n, h⟩, Outcome.events_after,
          List.singleton_append, sentBytes_cons]
        exact (List.prefix_append_right_inj _).mpr (ih _)

namespace Connection

/-- What `x` puts on an open socket is the beginning of the records `ps`. -/
def Puts {α : Type} (x : Act Event Connection α) (ps : List (FcgiHeader × Bytes)) : Prop :=
  ∀ c : Connection, c.socket.state ≠ .closed →
    sentBytes (x c).events <+: ps.flatMap recordBytes

/-- `writeBuffer` puts out the records of its buffer. -/
theorem puts_writeBuffer (r : Nat) (t : UInt8) (b : Bytes) :
    Puts (recordSocket.writeBuffer r t b) (bufferRecords r t b) := by
  intro c hs
  rw [writeBuffer_run hs]
  exact sentBytes_writeRecords _ _

/-- `sendStream` puts out those of a buffer that is not empty. -/
theorem puts_sendStream (r : Nat) (t : UInt8) (b : Bytes) :
    Puts (recordSocket.sendStream r t b) (streamRecords r t b) := by
  unfold sendStream streamRecords
  split
  · exact puts_writeBuffer r t b
  · exact fun c _ => List.prefix_rfl

/-- One write behind the other. -/
theorem Puts.seq {α : Type} {a : α} {x : Act Event Connection Bool} {y : Act Event Connection α}
    {ps qs : List (FcgiHeader × Bytes)} (hx : Puts x ps) (hsends : SendsUntil id x ps)
    (hy : Puts y qs) : Puts (x >>= fun ec => if ec then pure a else y) (ps ++ qs) := by
  intro c hs
  rw [List.flatMap_append]
  obtain ⟨ec, hec, h⟩ | ⟨ec, k, part, hec, _, _, h⟩ := hsends.sends c hs
  · -- the first records are out, and what follows them is the second part's
    have hec : ec = false := hec
    subst hec
    rw [Act.bind_of_ret h]
    simp only [Bool.false_eq_true, if_false, Outcome.events_after, sentBytes_append,
      sentBytes_map_wroteEvent]
    exact (List.prefix_append_right_inj _).mpr (hy _ hs)
  · have hec : ec = true := hec
    subst hec
    have hpart := hx c hs
    rw [h] at hpart
    rw [Act.bind_of_ret h]
    simp only [if_true, Act.pure_run, Outcome.after_mk, List.append_nil]
    exact hpart.trans (List.prefix_append _ _)

/-- What is returned does not matter. -/
theorem Puts.map {α β : Type} {x : Act Event Connection α} {f : α → β}
    {ps : List (FcgiHeader × Bytes)} (hx : Puts x ps) : Puts (x >>= fun a => pure (f a)) ps := by
  intro c hs
  have hc := hx c hs
  rw [Act.bind_run]
  split
  · next h =>
      rw [h] at hc
      simpa using hc
  · next h => rwa [h] at hc
  · next h => rwa [h] at hc

/-- The end of a reply: two empty records and the end record. -/
theorem puts_sendEnd (r : Nat) (appStatus : BitVec 32) :
    Puts (recordSocket.sendEnd r appStatus) (bufferRecords r fcgiStdout [] ++
      (bufferRecords r fcgiStderr [] ++ [endRecord r appStatus])) := by
  have hlast : bufferRecords r fcgiEndRequest (endRequestBody appStatus).toBytes =
      [endRecord r appStatus] := bufferRecords_short r fcgiEndRequest (by simp)
  rw [← hlast]
  exact (puts_writeBuffer r fcgiStdout []).seq (sendsUntil_writeBuffer _ _ _)
    ((puts_writeBuffer r fcgiStderr []).seq (sendsUntil_writeBuffer _ _ _)
      (puts_writeBuffer r fcgiEndRequest _))

/-- `sendReply` puts out the records of the reply. -/
theorem puts_sendReply (r : Nat) (d : RequestData) :
    Puts (recordSocket.sendReply r d.outBuffer d.errBuffer d.appStatus) (replyRecords r d) := by
  have hrecords : replyRecords r d = streamRecords r fcgiStdout d.outBuffer ++
      (streamRecords r fcgiStderr d.errBuffer ++ (bufferRecords r fcgiStdout [] ++
        (bufferRecords r fcgiStderr [] ++ [endRecord r d.appStatus]))) := by
    simp [replyRecords, replyStreams]
  rw [hrecords]
  exact (puts_sendStream r fcgiStdout d.outBuffer).seq (sendsUntil_sendStream _ _ _)
    ((puts_sendStream r fcgiStderr d.errBuffer).seq (sendsUntil_sendStream _ _ _)
      (puts_sendEnd r d.appStatus).map)

/-- The bytes of a block of records. -/
def blockBytes (ps : List (FcgiHeader × Bytes)) : Bytes := ps.flatMap recordBytes

/-- A failing answer is broken off, and what the connection does about it puts
nothing more on the wire. -/
theorem sentBytes_answer {c : Connection} (hs : c.socket.state ≠ .closed)
    (hc : c.state ≠ .closed) (r : Nat) (t : UInt8) (b : Bytes) :
    sentBytes (recordSocket.answer r t b c).events <+: blockBytes (bufferRecords r t b) := by
  have hput := puts_writeBuffer r t b c hs
  obtain ⟨ec, hec, h⟩ | ⟨ec, k, part, hec, _, _, h⟩ :=
    (sendsUntil_writeBuffer r t b).sends c hs
  · have hec : ec = false := hec
    subst hec
    rw [h] at hput
    rw [answer, Act.bind_of_ret h, blockBytes]
    simpa using hput
  · have hec : ec = true := hec
    subst hec
    rw [h] at hput
    have hevent := socketClosed_run (c := c.cut (c.socket.writeFaults.drop (k + 1))) hc
    rw [answer, Act.bind_of_ret h, Act.when_true, transceiverEventCallback_recordSocket, hevent,
      Outcome.after_mk, sentBytes_append, blockBytes]
    simpa [sentBytes_cons, Event.sent] using hput

/-! ## What is asked, and what answers it -/

/-- The packets that are answered as such, whatever the request map holds. -/
theorem dispatch_of_answer {r r' : Nat} {t t' : UInt8} {content body : Bytes}
    (h : Answer r t content r' t' body) :
    recordSocket.dispatch r t content = recordSocket.answer r' t' body := by
  cases h with
  | getValues ht =>
      rw [dispatch, if_pos ht]
      rfl
  | unknownRole ht hlen hrole =>
      rw [dispatch, if_neg (by rw [ht]; decide), if_pos ht, handleBeginRequest,
        if_neg (Nat.not_lt.mpr hlen), if_pos hrole]
  | unknownType ht =>
      simp only [List.mem_cons, List.not_mem_nil, or_false, not_or] at ht
      obtain ⟨hget, hbegin, habort, hparams, hstdin, hdata⟩ := ht
      simp only [dispatch, hget, hbegin, habort, hparams, hstdin, hdata, if_false]
      rfl

/-- Taking an entry out of the map puts nothing on the wire. -/
theorem sentBytes_onData_abort (c : Connection) (r : Nat) :
    sentBytes (onData (ConnectionData.handleAbortRequest r) c).events = [] := by
  have hrun := ConnectionData.handleAbortRequest_run c.data r
  cases he : c.data.requestMap[r]? with
  | none =>
      rw [he] at hrun
      rw [onData_of_throw hrun, sentBytes_nil]
  | some e =>
      rw [he] at hrun
      have hcb := runCallback_emptyCallback { c with data := c.data.erase r }
      simp only at hcb
      rw [onData_of_ret hrun, hcb]
      split <;> rfl

/-- An abort is answered by one record, and nothing else is written for it. -/
theorem sentBytes_handleAbortRequest {c : Connection} (hs : c.socket.state ≠ .closed)
    (hc : c.state ≠ .closed) (r : Nat) :
    sentBytes (recordSocket.handleAbortRequest r c).events <+: blockBytes [abortRecord r] := by
  have hput := sentBytes_answer hs hc r fcgiRequestComplete abortedBody
  rw [bufferRecords_aborted] at hput
  have hanswer : ∃ c' es, recordSocket.answer r fcgiRequestComplete abortedBody c =
      ⟨.ret (), c', es⟩ := by
    obtain ha | ⟨k, part, _, _, ha⟩ := answer_cases hs hc r fcgiRequestComplete abortedBody
    · exact ⟨_, _, ha⟩
    · exact ⟨_, _, ha⟩
  obtain ⟨c', es, ha⟩ := hanswer
  rw [ha] at hput
  rw [handleAbortRequest, Act.bind_of_ret ha, Outcome.events_after, sentBytes_append,
    abortRequestCallback_recordSocket, sentBytes_onData_abort, List.append_nil]
  exact hput

end Connection

/-- The events that ask the connection for a block: a packet that is answered
with a record whatever happens to the request map, and a reply that is sent. -/
def Event.asksAnswer : Event → Bool
  | .newPacket _ t content =>
      if t = fcgiBeginRequest then
        FcgiBeginRequestBody.size ≤ content.length &&
          (FcgiBeginRequestBody.cast content).role ≠ fcgiResponder
      else
        t ∉ [fcgiParams, fcgiStdin, fcgiData]
  | .sendReply _ _ => true
  | _ => false

/-- The block that answers an event. -/
inductive Answers : Event → List (FcgiHeader × Bytes) → Prop
  | packet {r r' : Nat} {t t' : UInt8} {content body : Bytes} : Answer r t content r' t' body →
      Answers (.newPacket r t content) (bufferRecords r' t' body)
  | abort {r : Nat} {content : Bytes} :
      Answers (.newPacket r fcgiAbortRequest content) [abortRecord r]
  | reply {r ptr : Nat} (d : RequestData) : Answers (.sendReply r ptr) (replyRecords r d)

namespace Connection

/-- A packet that has an answer asks for it. -/
theorem Answer.asksAnswer {r r' : Nat} {t t' : UInt8} {content body : Bytes}
    (h : Answer r t content r' t' body) : (Event.newPacket r t content).asksAnswer = true := by
  cases h with
  | getValues ht =>
      subst ht
      rfl
  | unknownRole ht hlen hrole =>
      subst ht
      simp [Event.asksAnswer, hlen, hrole]
  | unknownType ht =>
      simp only [List.mem_cons, List.not_mem_nil, or_false, not_or] at ht
      simp [Event.asksAnswer, ht]

/-- A packet that is rejected asks for none. -/
theorem Rejects.asksAnswer {d : ConnectionData} {r : Nat} {t : UInt8} {content : Bytes}
    (h : Rejects d r t content) : (Event.newPacket r t content).asksAnswer = false := by
  cases h with
  | shortBegin ht hlen =>
      subst ht
      simp [Event.asksAnswer, Nat.not_le.mpr hlen]
  | idInUse hb =>
      obtain ⟨rfl, _, hrole⟩ := hb
      simp [Event.asksAnswer, hrole]
  | streamUnknown ht =>
      obtain rfl | rfl := ht <;> rfl
  | stdinClosed ht =>
      subst ht
      rfl
  | paramsClosed ht =>
      subst ht
      rfl
  | data ht =>
      subst ht
      rfl

/-- A packet that begins a request asks for none. -/
theorem BeginsRequest.asksAnswer {r : Nat} {t : UInt8} {content : Bytes}
    (h : BeginsRequest t content) : (Event.newPacket r t content).asksAnswer = false := by
  obtain ⟨rfl, _, hrole⟩ := h
  simp [Event.asksAnswer, hrole]

/-- Nor does one that brings a part of a request. -/
theorem Receives.asksAnswer {r : Nat} {t : UInt8} {content : Bytes} {e : Entry}
    {f : RequestState → RequestData → RequestState × RequestData}
    (h : Receives t content e f) : (Event.newPacket r t content).asksAnswer = false := by
  cases h with
  | stdin ht =>
      subst ht
      rfl
  | params ht =>
      subst ht
      rfl

/-- Nobody is asked for anything by a packet that gets no answer of its own. -/
theorem filter_asksAnswer_packet {r : Nat} {t : UInt8} {content : Bytes} {es : List Event}
    (h : (Event.newPacket r t content).asksAnswer = false)
    (hes : es.filter Event.asksAnswer = []) :
    (Event.newPacket r t content :: es).filter Event.asksAnswer = [] := by
  rw [List.filter_cons_of_neg (by rw [h]; decide), hes]

/-- Records that go out ask for nothing. -/
theorem filter_asksAnswer_map (ps : List (FcgiHeader × Bytes)) :
    (ps.map wroteEvent).filter Event.asksAnswer = [] :=
  List.filter_eq_nil_iff.mpr fun x hx => by
    obtain ⟨p, _, rfl⟩ := List.mem_map.mp hx
    exact Bool.false_ne_true

/-- In the events of a reply only its beginning asks. -/
theorem filter_asksAnswer_reply (r ptr : Nat) (ps : List (FcgiHeader × Bytes)) {es : List Event}
    (hes : es.filter Event.asksAnswer = []) :
    (.sendReply r ptr :: ps.map wroteEvent ++ es).filter Event.asksAnswer = [.sendReply r ptr] := by
  rw [List.cons_append, List.filter_cons_of_pos rfl, List.filter_append, filter_asksAnswer_map,
    hes, List.append_nil]

/-- Records that go out whole are no write errors. -/
theorem writeError_notMem_map {part : Bytes} {ps : List (FcgiHeader × Bytes)} :
    .writeError part ∉ ps.map wroteEvent := by
  intro hmem
  obtain ⟨p, _, hp⟩ := List.mem_map.mp hmem
  cases hp

/-- What a step that may be asked for a block does about it: a broken block is
one that a write failed in, and it closes the connection; a closed connection
is asked nothing. -/
def AnswersStep (st st' : Connection.State) (es : List Event) : Prop :=
  ∃ breaks, StepAnswers blockBytes Answers Event.asksAnswer Event.sent es breaks ∧
    (breaks = true ↔ ∃ part, .writeError part ∈ es) ∧ (breaks = true → st' = .closed) ∧
    (st = .closed → es.filter Event.asksAnswer = [])

/-- A step that is asked nothing and writes nothing. -/
theorem AnswersStep.silent {st st' : Connection.State} {es : List Event}
    (hasks : es.filter Event.asksAnswer = []) (hsent : sentBytes es = [])
    (herror : ∀ part, .writeError part ∉ es) : AnswersStep st st' es :=
  ⟨false, .silent hasks hsent, by simpa using herror, by simp, fun _ => hasks⟩

/-- A step that puts out the whole block it is asked for. -/
theorem AnswersStep.whole {st st' : Connection.State} {es : List Event} {x : Event}
    {ps : List (FcgiHeader × Bytes)} (hst : st ≠ .closed)
    (hasks : es.filter Event.asksAnswer = [x])
    (hx : Answers x ps) (hsent : sentBytes es = blockBytes ps)
    (herror : ∀ part, .writeError part ∉ es) : AnswersStep st st' es :=
  ⟨false, .whole hasks hx hsent, by simpa using herror, by simp, fun h => absurd h hst⟩

/-- A step in which a write fails. -/
theorem AnswersStep.broken {st : Connection.State} {es : List Event} {x : Event} {part : Bytes}
    {ps : List (FcgiHeader × Bytes)} (hst : st ≠ .closed)
    (hasks : es.filter Event.asksAnswer = [x])
    (hx : Answers x ps) (hsent : sentBytes es <+: blockBytes ps)
    (herror : .writeError part ∈ es) :
    AnswersStep st .closed es :=
  ⟨true, .broken hasks hx hsent, by simpa using ⟨part, herror⟩, fun _ => rfl,
    fun h => absurd h hst⟩

/-- A packet asks for one answer or for none, and gets what it asks for. -/
theorem PacketEffect.answers {c c' : Connection} {r : Nat} {t : UInt8} {content : Bytes}
    {x : Exit Unit} {es : List Event} (h : PacketEffect c r t content ⟨x, c', es⟩)
    (hlive : ∀ w, x ≠ .abort w)
    (hput : ∀ ps, c.state ≠ .closed → Answers (.newPacket r t content) ps →
      sentBytes es <+: blockBytes ps) :
    AnswersStep c.state c'.state (.newPacket r t content :: es) := by
  cases h with
  | rejected hr => exact .silent (filter_asksAnswer_packet hr.asksAnswer rfl) rfl (by simp)
  | answered ha hc _ =>
      refine .whole hc ?_ (.packet ha) ?_ ?_
      · simp [ha.asksAnswer, filter_asksAnswer_map]
      · rw [sentBytes_cons, sentBytes_map_wroteEvent]
        rfl
      · intro part hmem
        obtain hmem | hmem := List.mem_cons.mp hmem
        · cases hmem
        · exact writeError_notMem_map hmem
  | @answerFailed r' t' body part fs k ha hc _ =>
      have herror : Event.writeError part ∈ c.failedWrite (bufferRecords r' t' body) k part := by
        simp [failedWrite]
      refine .broken hc ?_ (.packet ha) (hput _ hc (.packet ha))
        (List.mem_cons_of_mem _ herror)
      rw [List.filter_cons_of_pos ha.asksAnswer, failedWrite, List.filter_append,
        filter_asksAnswer_map]
      rfl
  | began hb => exact .silent (filter_asksAnswer_packet hb.asksAnswer rfl) rfl (by simp)
  | beganLast hb => exact .silent (filter_asksAnswer_packet hb.asksAnswer rfl) rfl (by simp)
  | abortUnknown ht hc _ _ =>
      subst ht
      exact .whole hc rfl .abort rfl (by simp [wroteEvent])
  | aborted ht hc _ _ _ =>
      subst ht
      refine .whole hc rfl .abort ?_ (by simp [wroteEvent])
      simp [sentBytes_cons, Event.sent, blockBytes, recordBytes, wroteEvent]
  | abortedLast ht hc _ _ _ =>
      subst ht
      refine .whole (by rw [hc]; decide) rfl .abort ?_ (by simp [wroteEvent])
      simp [sentBytes_cons, Event.sent, blockBytes, recordBytes, wroteEvent]
  | abortFailed ht hc _ =>
      subst ht
      exact .broken hc rfl .abort (hput _ hc .abort)
        (List.mem_cons_of_mem _ (List.mem_cons_self ..))
  | received hf _ _ => exact .silent (filter_asksAnswer_packet hf.asksAnswer rfl) rfl (by simp)
  | receivedReady hf _ _ =>
      exact .silent (filter_asksAnswer_packet hf.asksAnswer rfl) rfl (by simp)
  | died => exact absurd rfl (hlive _)

/-- The next packet puts on the wire what `handleNewPacket` puts there for it. -/
theorem sentBytes_nextPacket {c : Connection} {h : FcgiHeader} {content : Bytes}
    (hn : NextRecord c.socket.inputBuffer h content) :
    sentBytes (owner.nextPacket c).events =
      sentBytes (recordSocket.dispatch h.requestId h.type content c).events := by
  obtain ⟨hlen, rfl, hv, hrec, rfl⟩ := hn
  have hsocket : owner.socket c = c.socket := rfl
  have hconsume : ∀ (c : Connection) (n : Nat),
      owner.consume n c = ⟨.ret (), c.consumed n, []⟩ :=
    fun _ _ => rfl
  simp only [Owner.nextPacket, Act.get_bind_run, hsocket]
  rw [if_neg (Nat.not_lt.mpr hlen)]
  simp only [hv, ne_eq, not_true_eq_false, if_false, Nat.not_lt.mpr hrec]
  generalize FcgiHeader.cast c.socket.inputBuffer = h
  generalize (c.socket.inputBuffer.drop fcgiHeaderLen).take h.contentLength = content
  have hpacket : owner.newPacketCallback false h.requestId h.type content c =
      (recordSocket.dispatch h.requestId h.type content c).after
        [.newPacket h.requestId h.type content] := rfl
  rcases hdispatch : recordSocket.dispatch h.requestId h.type content c with ⟨exit, c', es⟩
  rw [hdispatch] at hpacket
  cases exit with
  | ret u =>
      rw [@Act.tryCatch_of_ret _ _ _ _ _ _ (c'.consumed h.recordLength)
        (decide (c'.socket.state ≠ .closed)) (.newPacket h.requestId h.type content :: es) ?_]
      · rfl
      · rw [Act.bind_of_ret hpacket, Act.bind_of_ret (hconsume _ _)]
        simp only [Act.get_bind_run, Act.pure_run, Outcome.after_mk, List.append_nil,
          List.singleton_append]
        rfl
  | throw w =>
      rw [Act.tryCatch_of_throw (Act.bind_of_throw hpacket), Act.bind_of_ret (hconsume _ _)]
      simp only [Act.pure_run, Outcome.after_mk, List.append_nil, List.singleton_append]
      rfl
  | abort w =>
      rw [Act.tryCatch_of_abort (Act.bind_of_abort hpacket)]
      rfl

/-- A packet that asks for a block puts out the beginning of it. -/
theorem sentBytes_dispatch {c : Connection} (hwf : c.WF) (hc : c.state ≠ .closed) {r : Nat}
    {t : UInt8} {content : Bytes} {ps : List (FcgiHeader × Bytes)}
    (ha : Answers (.newPacket r t content) ps) :
    sentBytes (recordSocket.dispatch r t content c).events <+: blockBytes ps := by
  have hs : c.socket.state ≠ .closed := fun hs => hc (hwf.mpr hs)
  cases ha with
  | packet ha =>
      rw [dispatch_of_answer ha]
      exact sentBytes_answer hs hc _ _ _
  | abort => exact sentBytes_handleAbortRequest hs hc r

/-- A reply puts out the beginning of its records. -/
theorem sentBytes_commitReplyImpl {c : Connection} (hs : c.socket.state ≠ .closed) {r : Nat}
    {e : Entry} (he : c.data.requestMap[r]? = some e) :
    sentBytes (commitReplyImpl r e.ptr c).events <+: blockBytes (replyRecords r e.data) := by
  have hput := puts_sendReply r e.data c hs
  obtain ⟨reply, hec, h⟩ | ⟨reply, k, part, hec, _, _, h⟩ :=
    (sendsUntil_sendReply r e.data).sends c hs
  · have hclean := cleanupRequest_withReply
      (c := c.withFaults (c.socket.writeFaults.drop (replyRecords r e.data).length)) he reply
    rw [h] at hput
    rw [commitReplyImpl_run he h, if_neg (by rw [hec]; decide), hclean, Outcome.events_after,
      List.cons_append, sentBytes_cons, sentBytes_append, blockBytes]
    split
    · simpa [Event.sent] using hput
    · split <;> simpa [Event.sent, sentBytes_cons] using hput
  · rw [h] at hput
    rw [commitReplyImpl_cut he h hec, List.cons_append, sentBytes_cons, sentBytes_append,
      blockBytes]
    simpa [Event.sent, sentBytes_cons] using hput

/-- So does a pass of the read loop. -/
theorem PassEffect.answers {c c' : Connection} {again : Bool} {es : List Event} (hwf : c.WF)
    (h : PassEffect c ⟨.ret again, c', es⟩) (hes : es = (owner.nextPacket c).events) :
    AnswersStep c.state c'.state es := by
  cases h with
  | drained => exact .silent rfl rfl (by simp)
  | unsupported => exact .silent rfl rfl (by simp)
  | incomplete => exact .silent rfl rfl (by simp)
  | @handled _ _ c' es hn h =>
      have hbytes := sentBytes_nextPacket hn
      rw [← hes] at hbytes
      have hanswers := h.answers (by simp) fun ps hc ha => by
        have hput := sentBytes_dispatch hwf hc ha
        rwa [← hbytes] at hput
      exact hanswers
  | @caught _ _ _ c' es hn h =>
      have hbytes := sentBytes_nextPacket hn
      rw [← hes] at hbytes
      have hanswers := h.answers (by simp) fun ps hc ha => by
        have hput := sentBytes_dispatch hwf hc ha
        rwa [← hbytes] at hput
      exact hanswers

/-- So does a reply. -/
theorem CommitEffect.answers {c c' : Connection} {r ptr : Nat} {es : List Event} (hwf : c.WF)
    (h : CommitEffect c r ptr ⟨.ret (), c', es⟩) (hes : es = (commitReplyImpl r ptr c).events) :
    AnswersStep c.state c'.state es := by
  cases h with
  | stale => exact .silent rfl rfl (by simp)
  | @replied e _ hc he hp _ _ _ =>
      refine .whole hc (filter_asksAnswer_reply r ptr _ rfl) (.reply e.data) ?_ ?_
      · simp [sentBytes_cons, sentBytes_append, sentBytes_map_wroteEvent, Event.sent, blockBytes]
      · simp [writeError_notMem_map]
  | @repliedLast e _ hc he hp _ _ _ =>
      refine .whole (by rw [hc]; decide) (filter_asksAnswer_reply r ptr _ rfl) (.reply e.data) ?_ ?_
      · simp [sentBytes_cons, sentBytes_append, sentBytes_map_wroteEvent, Event.sent, blockBytes]
      · simp [writeError_notMem_map]
  | @replyFailed e _ k _ part hc he hp _ =>
      subst hp
      have hput := sentBytes_commitReplyImpl (fun hs => hc (hwf.mpr hs)) he
      rw [← hes] at hput
      exact .broken hc (filter_asksAnswer_reply r e.ptr _ rfl) (.reply e.data) hput
        (List.mem_append_right _ (List.mem_cons_self ..))

end Connection

namespace Strand

/-- So does every step of a connection. -/
theorem Moves.answers {s s' : Strand} {l : Step} {es : List Event} (hwf : s.connection.WF)
    (h : Moves s l s' es) (hes : es = (machine.act l s).events) :
    AnswersStep s.connection.state s'.connection.state es := by
  cases h with
  | readClosed => exact .silent rfl rfl (by simp)
  | readFailed => exact .silent rfl rfl (by simp)
  | readBytes => exact .silent rfl rfl (by simp)
  | @pass again c' es h =>
      refine h.answers hwf ?_
      rcases hrun : owner.nextPacket s.connection with ⟨exit, c'', es'⟩
      have heffect := nextPacket_effect hwf
      rw [hrun] at heffect
      cases exit with
      | ret again' =>
          rw [hes]
          exact congrArg Outcome.events (act_nextPacket s.reading hrun)
      | throw w => cases heffect
      | abort w =>
          rw [hes]
          exact congrArg Outcome.events (act_nextPacket_abort s.reading hrun)
  | flush => exact .silent rfl rfl (by simp)
  | @commit r ptr rest c' es ht h =>
      refine CommitEffect.answers (c := withStrand s.connection rest) hwf h ?_
      rw [hes]
      exact congrArg Outcome.events (runTask_run ht)
  | commitReply => exact .silent rfl rfl (by simp)
  | edit => exact .silent rfl rfl (by simp)

end Strand

/-! ## Reading the output -/

namespace PacketSocket

/-- A record as its reader gets it. -/
def packetOf (p : FcgiHeader × Bytes) : Nat × UInt8 × Bytes := (p.1.requestId, p.1.type, p.2)

/-- A record that a reader takes for one, and for what it is. -/
def IsRecord (p : FcgiHeader × Bytes) : Prop :=
  ∃ rec : WireRecord, rec.toBytes = recordBytes p ∧
    (rec.requestId, rec.type, rec.content) = packetOf p

/-- Only the low sixteen bits of an id are sent. -/
theorem fragmentHeader_mod (r : Nat) (t : UInt8) (written : Nat) :
    fragmentHeader (r % 65536) t written = fragmentHeader r t written := by
  have hhigh : octet ((r % 65536) >>> 8) = octet (r >>> 8) := by
    apply UInt8.toNat_inj.mp
    rw [toNat_octet, toNat_octet, shiftRight_eight, shiftRight_eight]
    omega
  have hlow : octet (r % 65536) = octet r := by
    apply UInt8.toNat_inj.mp
    rw [toNat_octet, toNat_octet]
    omega
  rw [fragmentHeader, fragmentHeader, hhigh, hlow]

/-- A fragment of a buffer is a record. -/
theorem IsFragment.isRecord {r : Nat} {t : UInt8} {p : FcgiHeader × Bytes} (h : IsFragment r t p) :
    IsRecord p := by
  have hr : r % 65536 < 65536 := Nat.mod_lt _ (by decide)
  obtain ⟨hheader, hle⟩ := h
  rw [← fragmentHeader_mod] at hheader
  have hid : p.1.requestId = r % 65536 := by
    rw [hheader]
    exact two_octets hr
  have htype : p.1.type = t := by
    rw [hheader]
    rfl
  obtain ⟨rec, hrec, ht, hcontent, hbytes⟩ := IsFragment.exists_wireRecord ⟨hheader, hle⟩ hr
  exact ⟨rec, hbytes, by rw [packetOf, hrec, ht, hcontent, hid, htype]⟩

/-- The records of a buffer are records. -/
theorem isRecord_bufferRecords {r : Nat} {t : UInt8} {b : Bytes} {p : FcgiHeader × Bytes}
    (h : p ∈ bufferRecords r t b) : IsRecord p :=
  ((fragments_bufferRecords r t b).fragment p h).isRecord

/-- So are those of a reply. -/
theorem isRecord_replyRecords {r : Nat} {d : RequestData} {p : FcgiHeader × Bytes}
    (h : p ∈ replyRecords r d) : IsRecord p := by
  have hstream : ∀ t b, p ∈ streamRecords r t b → IsRecord p := by
    intro t b hp
    unfold streamRecords at hp
    split at hp
    · exact isRecord_bufferRecords hp
    · cases hp
  simp only [replyRecords, replyStreams, List.mem_append, List.mem_singleton] at h
  obtain (h | h | h | h) | rfl := h
  · exact hstream _ _ h
  · exact hstream _ _ h
  · exact isRecord_bufferRecords h
  · exact isRecord_bufferRecords h
  · have hlen : (endRequestBody d.appStatus).toBytes.length ≤ 0xffff := by
      rw [FcgiEndRequestBody.length_toBytes]
      decide
    exact IsFragment.isRecord (r := r) (t := fcgiEndRequest) ⟨rfl, hlen⟩

/-- The reader takes the records off the beginning of a string of records, and
leaves of the last one what is not a whole record. -/
theorem reads_isPrefix {ps : List (FcgiHeader × Bytes)} (h : ∀ p ∈ ps, IsRecord p) {b : Bytes}
    (hb : b <+: ps.flatMap recordBytes) : ∃ n rest, Reads b ((ps.take n).map packetOf) rest := by
  induction ps generalizing b with
  | nil =>
      obtain rfl := List.prefix_nil.mp hb
      exact ⟨0, [], .drained (by decide)⟩
  | cons p ps ih =>
      obtain ⟨rec, hbytes, hpacket⟩ := h p (List.mem_cons_self ..)
      obtain ⟨hrec, hv, _⟩ := rec.whole
      rw [List.flatMap_cons, ← hbytes] at hb
      by_cases hle : rec.toBytes.length ≤ b.length
      · obtain ⟨b, rfl⟩ := List.prefix_of_prefix_length_le (List.prefix_append _ _) hb hle
        obtain ⟨n, rest, hreads⟩ := ih (fun q hq => h q (List.mem_cons_of_mem _ hq))
          ((List.prefix_append_right_inj _).mp hb)
        refine ⟨n + 1, rest, ?_⟩
        rw [List.take_succ_cons, List.map_cons, ← hpacket]
        exact hreads.wireRecord rec
      · -- the record has not come whole
        refine ⟨0, b, ?_⟩
        obtain ⟨rest, hrest⟩ :=
          List.prefix_of_prefix_length_le hb (List.prefix_append _ _) (Nat.le_of_not_le hle)
        by_cases hlen : fcgiHeaderLen ≤ b.length
        · have hcast := FcgiHeader.cast_append hlen rest
          rw [hrest] at hcast
          refine .incomplete hlen (by rw [← hcast, hv]) ?_
          rw [← hcast, hrec]
          omega
        · exact .drained (Nat.lt_of_not_le hlen)

/-- A string of records is read record by record. -/
theorem reads_records {ps : List (FcgiHeader × Bytes)} (h : ∀ p ∈ ps, IsRecord p) :
    Reads (ps.flatMap recordBytes) (ps.map packetOf) [] := by
  induction ps with
  | nil => exact .drained (by decide)
  | cons p ps ih =>
      obtain ⟨rec, hbytes, hpacket⟩ := h p (List.mem_cons_self ..)
      have hrest := ih fun q hq => h q (List.mem_cons_of_mem _ hq)
      rw [List.flatMap_cons, List.map_cons, ← hbytes, ← hpacket]
      exact hrest.wireRecord rec

end PacketSocket

/-- Every answer is a string of records. -/
theorem Answers.isRecord {x : Event} {ps : List (FcgiHeader × Bytes)} (h : Answers x ps)
    {p : FcgiHeader × Bytes} (hp : p ∈ ps) : IsRecord p := by
  cases h with
  | packet => exact isRecord_bufferRecords hp
  | abort =>
      obtain rfl := List.mem_singleton.mp hp
      have hlen : abortedBody.length ≤ 0xffff := by decide
      exact IsFragment.isRecord ⟨rfl, hlen⟩
  | reply d => exact isRecord_replyRecords hp

/-! ## The output of a run -/

/-- The events `t` put blocks on the wire, one for each event that asks for
one; the last block is broken off exactly when a write failed, and then the
connection is CLOSED. -/
structure WritesBlocks (t : List Event) (st : Connection.State)
    (blocks : List (List (FcgiHeader × Bytes))) (broken : Bool) : Prop where
  answered : Answered blockBytes Answers (t.filter Event.asksAnswer) blocks broken (sentBytes t)
  broken_iff : broken = true ↔ ∃ part, .writeError part ∈ t
  closed_of_broken : broken = true → st = .closed

/-- Nothing is written before the first step. -/
theorem writesBlocks_nil (st : Connection.State) : WritesBlocks [] st [] false where
  answered := answered_nil
  broken_iff := by simp
  closed_of_broken := by simp

/-- One step more. -/
theorem WritesBlocks.step {t es : List Event} {st st' : Connection.State}
    {blocks : List (List (FcgiHeader × Bytes))} {broken : Bool}
    (h : WritesBlocks t st blocks broken) (hs : AnswersStep st st' es)
    (hclosed : st = .closed → st' = .closed) :
    ∃ blocks' broken', WritesBlocks (t ++ es) st' blocks' broken' := by
  obtain ⟨breaks, hanswers, herror, hbreaks, hsilent⟩ := hs
  obtain ⟨blocks', hanswered⟩ :=
    h.answered.step hanswers fun hbroken => hsilent (h.closed_of_broken hbroken)
  refine ⟨blocks', broken || breaks, hanswered, ?_, ?_⟩
  · rw [Bool.or_eq_true, h.broken_iff, herror]
    simp only [List.mem_append, exists_or]
  · rw [Bool.or_eq_true]
    rintro (hbroken | hbroken)
    · exact hclosed (h.closed_of_broken hbroken)
    · exact hbreaks hbroken

/-- Every record of a block is one that a reader takes. -/
theorem WritesBlocks.isRecord {t : List Event} {st : Connection.State}
    {blocks : List (List (FcgiHeader × Bytes))} {broken : Bool}
    (h : WritesBlocks t st blocks broken) {p : FcgiHeader × Bytes} (hp : p ∈ blocks.flatten) :
    IsRecord p := by
  obtain ⟨ps, hps, hp⟩ := List.mem_flatten.mp hp
  obtain ⟨i, hi, rfl⟩ := List.mem_iff_getElem.mp hps
  have heach := List.forall₂_iff_get.mp h.answered.each
  exact (heach.2 i (by rw [heach.1]; exact hi) hi).isRecord hp

/-- The bytes of all blocks are those of their records. -/
theorem flatMap_blockBytes (blocks : List (List (FcgiHeader × Bytes))) :
    blocks.flatMap blockBytes = blocks.flatten.flatMap recordBytes := by
  rw [List.flatten_eq_flatMap, List.flatMap_assoc]
  rfl

/-- Whoever reads the wire gets the records of the blocks from the first one
on: all of them and nothing else, unless the last block was broken off. -/
theorem WritesBlocks.reads {t : List Event} {st : Connection.State}
    {blocks : List (List (FcgiHeader × Bytes))} {broken : Bool}
    (h : WritesBlocks t st blocks broken) :
    (∃ n rest, Reads (sentBytes t) ((blocks.flatten.take n).map packetOf) rest) ∧
      (broken = false → Reads (sentBytes t) (blocks.flatten.map packetOf) []) := by
  constructor
  · have hprefix := h.answered.isPrefix
    rw [flatMap_blockBytes] at hprefix
    exact reads_isPrefix (fun p hp => h.isRecord hp) hprefix
  · rintro rfl
    rw [h.answered.puts.eq_of_whole, flatMap_blockBytes]
    exact reads_records fun p hp => h.isRecord hp

/-- **What a connection puts on its socket**, over any run: for every packet
that is answered and for every reply that is sent one block of records, in the
order in which they were asked for and nothing between or inside them.  A web
server that reads the socket gets these records; only when a write failed it
gets the first of them, and then the connection is CLOSED. -/
theorem Strand.output_in_blocks {fs : List (Option Nat)} {u : Nat → BitVec 32}
    {tr : List (Fired Strand Step)} {s : Strand} (h : machine.Run (init fs u) tr s) :
    ∃ blocks broken, WritesBlocks (machine.trace tr) s.connection.state blocks broken ∧
      (∃ n rest, Reads (sentBytes (machine.trace tr))
        ((blocks.flatten.take n).map packetOf) rest) ∧
      (broken = false →
        Reads (sentBytes (machine.trace tr)) (blocks.flatten.map packetOf) []) := by
  obtain ⟨blocks, broken, hblocks⟩ := inv (fun _ _ => True)
    (fun t s => ∃ blocks broken, WritesBlocks t s.connection.state blocks broken)
    ⟨[], false, writesBlocks_nil _⟩
    (fun _ s l hwf hj _ _ hm => by
      obtain ⟨_, _, hj⟩ := hj
      exact hj.step (hm.answers hwf rfl) hm.life.state_mono.2)
    h (fun _ _ => trivial)
  exact ⟨blocks, broken, hblocks, hblocks.reads⟩

/-- Two packets of unknown type, and a socket that breaks five bytes into the
second answer. -/
theorem Strand.output_in_blocks_broken :
    ∃ tr s blocks, machine.Run (init [none, some 5] fun _ => 0) tr s ∧
      WritesBlocks (machine.trace tr) s.connection.state blocks true ∧ blocks.length = 2 ∧
      (sentBytes (machine.trace tr)).length = 21 := by
  obtain ⟨tr, s, hrun, hp⟩ := Machine.exists_run_of_exec machine
    (init [none, some 5] fun _ => 0)
    [.handleRead false [1, 42, 0, 0, 0, 0, 0, 0, 1, 42, 0, 0, 0, 0, 0, 0], .nextPacket, .nextPacket]
    (fun tr _ => ((machine.trace tr).filter Event.asksAnswer).length = 2 &&
      ((machine.trace tr).any (fun x => x.isSocketError && x.isWrite) &&
        (sentBytes (machine.trace tr)).length = 21)) (by decide)
  simp only [Bool.and_eq_true, decide_eq_true_eq, List.any_eq_true] at hp
  obtain ⟨hasked, ⟨x, hx, herror, hwrite⟩, hlen⟩ := hp
  obtain ⟨blocks, broken, hblocks, _, _⟩ := output_in_blocks hrun
  have hbroken : broken = true := by
    refine hblocks.broken_iff.mpr ?_
    cases x with
    | writeError part => exact ⟨part, hx⟩
    | readError => cases hwrite
    | _ => cases herror
  subst hbroken
  exact ⟨tr, s, blocks, hrun, hblocks, by rw [← hblocks.answered.each.length_eq, hasked],
    hlen⟩

end Santiago
