import Santiago.Connection

/-!
# Santiago.Connection.Steps

What one step of a connection can do, said once.  `PacketEffect` lists the
ways a call of `handleNewPacket` can end, `CommitEffect` those of
`commitReplyImpl`, each with its exit, the state left and the events; the
invariants of the later modules are case analyses over these lists and never
unfold the code again.

`dispatch_effect` and `commitReplyImpl_effect` show that the lists are
complete, for a connection whose state and packet socket agree on being
closed (`WF`).
-/

namespace Santiago.Connection

open Effect Bytes PacketSocket RecordSocket

/-- The connection is CLOSED exactly when its packet socket is. -/
def WF (c : Connection) : Prop := c.state = .closed ↔ c.socket.state = .closed

/-! ## Closing -/

/-- The connection after `closeAndCleanup`. -/
def shut (c : Connection) : Connection where
  socket := c.socket.shut
  data := c.data.clear
  state := .closed

/-- The connection with its socket's coming answers replaced. -/
def withFaults (c : Connection) (fs : List (Option Nat)) : Connection :=
  { c with socket := c.socket.withFaults fs }

@[simp] theorem data_withFaults (c : Connection) (fs : List (Option Nat)) :
    (c.withFaults fs).data = c.data := rfl

@[simp] theorem state_withFaults (c : Connection) (fs : List (Option Nat)) :
    (c.withFaults fs).state = c.state := rfl

@[simp] theorem socket_withFaults (c : Connection) (fs : List (Option Nat)) :
    (c.withFaults fs).socket = c.socket.withFaults fs := rfl

/-- A connection that shuts has no requests. -/
@[simp] theorem data_shut (c : Connection) : c.shut.data = c.data.clear := rfl

/-- It is CLOSED. -/
@[simp] theorem state_shut (c : Connection) : c.shut.state = .closed := rfl

/-- So is its socket. -/
@[simp] theorem socket_shut (c : Connection) : c.shut.socket = c.socket.shut := rfl

/-- And so it is well formed. -/
theorem wf_shut (c : Connection) : c.shut.WF := by simp [WF]

/-- `closeAndCleanup` shuts the connection and calls the acceptor. -/
theorem closeAndCleanup_run (c : Connection) :
    closeAndCleanup c = ⟨.ret (), c.shut, [.cleared c.data.size, .closeCallback]⟩ := by
  have hclose : ∀ c : Connection, Act.zoom socket setSocket close c =
      ⟨.ret (), { c with socket := c.socket.shut }, []⟩ := by
    intro c
    simp [close_run, setSocket]
  simp only [closeAndCleanup, Act.get_bind_run, Act.emit_bind_run, Act.modify_bind_run]
  rw [Act.bind_of_ret (hclose _)]
  simp [shut]

/-- A socket that closes shuts its connection. -/
theorem socketClosed_run {c : Connection} (h : c.state ≠ .closed) :
    handleTransceiverEvent .socketClosed c =
      ⟨.ret (), c.shut, [.cleared c.data.size, .closeCallback]⟩ := by
  simp [handleTransceiverEvent, h, closeAndCleanup_run]

/-- A wind-down with requests in the map only changes the state. -/
theorem connectionWindDown_run {c : Connection} (h : c.state ≠ .closed) (hs : c.data.size ≠ 0) :
    handleTransceiverEvent .connectionWindDown c =
      ⟨.ret (), { c with state := .closing }, []⟩ := by
  simp [handleTransceiverEvent, h, hs]

/-- On a CLOSED connection every event of the socket fails the assertion. -/
theorem handleTransceiverEvent_run_closed {c : Connection} (h : c.state = .closed)
    (e : TransceiverEventInfo) :
    handleTransceiverEvent e c =
      ⟨.abort "Connection::handleTransceiverEvent: _state != CLOSED", c, []⟩ := by
  simp [handleTransceiverEvent, h]

/-! ## Calls into the request map -/

/-- A function of the map that throws makes no callback. -/
theorem onData_of_throw {x : Act Event ConnectionData (Option ConnectionData.Callback)}
    {c : Connection} {w : String} {es : List Event} (h : x c.data = ⟨.throw w, c.data, es⟩) :
    onData x c = ⟨.throw w, c, es⟩ := by
  have hz : Act.zoom data setData x c = ⟨.throw w, c, es⟩ := by
    rw [Act.zoom_run, h]
    rfl
  rw [onData, Act.bind_of_throw hz]

/-- A function of the map that returns makes its callback. -/
theorem onData_of_ret {x : Act Event ConnectionData (Option ConnectionData.Callback)}
    {c : Connection} {d : ConnectionData} {cb : Option ConnectionData.Callback} {es : List Event}
    (h : x c.data = ⟨.ret cb, d, es⟩) :
    onData x c = (runCallback cb { c with data := d }).after es := by
  have hz : Act.zoom data setData x c = ⟨.ret cb, { c with data := d }, es⟩ := by
    rw [Act.zoom_run, h]
    rfl
  rw [onData, Act.bind_of_ret hz]

/-- A function of the map that fails an assertion ends the process. -/
theorem onData_of_abort {x : Act Event ConnectionData (Option ConnectionData.Callback)}
    {c : Connection} {d : ConnectionData} {w : String} {es : List Event}
    (h : x c.data = ⟨.abort w, d, es⟩) :
      onData x c = ⟨.abort w, { c with data := d }, es⟩ := by
  have hz : Act.zoom data setData x c = ⟨.abort w, { c with data := d }, es⟩ := by
    rw [Act.zoom_run, h]
    rfl
  rw [onData, Act.bind_of_abort hz]

/-- After an erase the connection closes when it was winding down and this
was the last entry. -/
theorem runCallback_emptyCallback (c : Connection) :
    runCallback c.data.emptyCallback c =
      if c.state = .closing ∧ c.data.size = 0 then
        ⟨.ret (), c.shut, [.cleared 0, .closeCallback]⟩
      else ⟨.ret (), c, []⟩ := by
  unfold ConnectionData.emptyCallback
  by_cases hs : c.data.requestMap.size = 0
  · rw [if_pos hs]
    by_cases hc : c.state = .closing
    · rw [if_pos ⟨hc, hs⟩]
      simp [runCallback, handleOnEmpty, hc, closeAndCleanup_run, ConnectionData.size, hs]
    · rw [if_neg (fun h => hc h.1)]
      simp [runCallback, handleOnEmpty, hc]
  · rw [if_neg hs, if_neg (fun h => hs h.2)]
    rfl

/-! ## Answers -/

/-- The records of one `writeBuffer`. -/
def bufferRecords (requestId : Nat) (headerType : UInt8) (buffer : Bytes) :
    List (FcgiHeader × Bytes) :=
  packetRecords requestId headerType (buffer.length % 2 ^ 32) buffer

/-- A buffer that fits one record is one record. -/
theorem bufferRecords_short (r : Nat) (t : UInt8) {b : Bytes} (h : b.length ≤ 0xffff) :
    bufferRecords r t b = [(fragmentHeader r t b.length, b)] := by
  have hmod : b.length % 2 ^ 32 = b.length := Nat.mod_eq_of_lt (by omega)
  have hmin : min b.length 0xffff = b.length := Nat.min_eq_left h
  rw [bufferRecords, packetRecords, hmod, recordsFrom]
  simp [hmin]

/-- A buffer that goes out whole, or breaks off and closes the connection. -/
theorem writeBuffer_run {c : Connection} (h : c.socket.state ≠ .closed) (r : Nat) (t : UInt8)
    (b : Bytes) :
    recordSocket.writeBuffer r t b c =
      ⟨(writeRecords (bufferRecords r t b) c.socket).exit,
        { c with socket := (writeRecords (bufferRecords r t b) c.socket).state },
        (writeRecords (bufferRecords r t b) c.socket).events⟩ := by
  have hw := writePacket_run h r t (b.length % 2 ^ 32) b
  simp only [writeBuffer, onSocket, recordSocket, Act.zoom_run, hw, setSocket, bufferRecords]

/-- Nothing is written to a socket that is CLOSED: the assertion fails. -/
theorem writeBuffer_run_closed {c : Connection} (h : c.socket.state = .closed) (r : Nat)
    (t : UInt8) (b : Bytes) :
    recordSocket.writeBuffer r t b c =
      ⟨.abort "PacketSocket::writePacket: _state != CLOSED", c, []⟩ := by
  have hw := writePacket_run_closed h r t (b.length % 2 ^ 32) b
  simp only [writeBuffer, onSocket, recordSocket, Act.zoom_run, hw, setSocket]

/-- The events of a failing write followed by `closeAndCleanup`. -/
def failedWrite (c : Connection) (ps : List (FcgiHeader × Bytes)) (k : Nat) (part : Bytes) :
    List Event :=
  (ps.take k).map wroteEvent ++ [.writeError part, .cleared c.data.size, .closeCallback]

/-- An answer that the socket takes. -/
theorem answer_of_takes {c : Connection} (hs : c.socket.state ≠ .closed) {r : Nat} {t : UInt8}
    {b : Bytes} (h : c.socket.Takes (bufferRecords r t b).length) :
    recordSocket.answer r t b c =
      ⟨.ret (), c.withFaults (c.socket.writeFaults.drop (bufferRecords r t b).length),
        (bufferRecords r t b).map wroteEvent⟩ := by
  have hrun := writeBuffer_run hs r t b
  rw [writeRecords_of_takes _ h] at hrun
  rw [answer, Act.bind_of_ret hrun]
  simp [withFaults]

/-- An answer that fails closes the connection. -/
theorem answer_of_failsAt {c : Connection} (hs : c.socket.state ≠ .closed)
    (hc : c.state ≠ .closed) {r : Nat} {t : UInt8} {b : Bytes} {k : Nat}
    (hk : k < (bufferRecords r t b).length) (h : c.socket.FailsAt k) :
    ∃ part, recordSocket.answer r t b c =
      ⟨.ret (), (c.withFaults (c.socket.writeFaults.drop (k + 1))).shut,
        c.failedWrite (bufferRecords r t b) k part⟩ := by
  have hrun := writeBuffer_run hs r t b
  obtain ⟨part, hwrite⟩ := writeRecords_of_failsAt _ hk h
  rw [hwrite] at hrun
  have hclosed : recordSocket.transceiverEventCallback .socketClosed
      { c with socket := (c.socket.withFaults (c.socket.writeFaults.drop (k + 1))).shut } =
        ⟨.ret (), (c.withFaults (c.socket.writeFaults.drop (k + 1))).shut,
          [.cleared c.data.size, .closeCallback]⟩ := by
    have hrest := socketClosed_run (c := { c with
      socket := (c.socket.withFaults (c.socket.writeFaults.drop (k + 1))).shut }) hc
    simpa [shut, withFaults] using hrest
  refine ⟨part, ?_⟩
  rw [answer, Act.bind_of_ret hrun, Act.when_true, hclosed]
  simp [failedWrite]

/-- An answer goes out whole and nothing else happens, or one of its writes
fails and the connection closes. -/
theorem answer_cases {c : Connection} (hs : c.socket.state ≠ .closed) (hc : c.state ≠ .closed)
    (r : Nat) (t : UInt8) (b : Bytes) :
    recordSocket.answer r t b c =
        ⟨.ret (), c.withFaults (c.socket.writeFaults.drop (bufferRecords r t b).length),
          (bufferRecords r t b).map wroteEvent⟩ ∨
      ∃ k part, k < (bufferRecords r t b).length ∧
        (∃ n, c.socket.writeFaults[k]? = some (some n)) ∧
        recordSocket.answer r t b c =
          ⟨.ret (), (c.withFaults (c.socket.writeFaults.drop (k + 1))).shut,
            c.failedWrite (bufferRecords r t b) k part⟩ := by
  obtain htakes | ⟨k, hk, hfails⟩ := c.socket.takes_or_failsAt (bufferRecords r t b).length
  · exact .inl (answer_of_takes hs htakes)
  · obtain ⟨part, h⟩ := answer_of_failsAt hs hc hk hfails
    exact .inr ⟨k, part, hk, hfails.2, h⟩

/-! ## What a packet can do -/

/-- The record an abort is answered with. -/
def abortRecord (requestId : Nat) : FcgiHeader × Bytes :=
  (fragmentHeader requestId fcgiRequestComplete abortedBody.length, abortedBody)

/-- The packets `handleNewPacket` answers without touching the request map,
each with the `writeBuffer` call it makes. -/
inductive Answer (r : Nat) (t : UInt8) (content : Bytes) : Nat → UInt8 → Bytes → Prop
  | getValues : t = fcgiGetValues →
      Answer r t content 0 fcgiGetValuesResult
        (getValuesResult (parsePairs content content.length ∅))
  | unknownRole : t = fcgiBeginRequest → FcgiBeginRequestBody.size ≤ content.length →
      (FcgiBeginRequestBody.cast content).role ≠ fcgiResponder →
      Answer r t content r fcgiEndRequest unknownRoleBody
  | unknownType :
      t ∉ [fcgiGetValues, fcgiBeginRequest, fcgiAbortRequest, fcgiParams, fcgiStdin, fcgiData] →
      Answer r t content 0 fcgiUnknownType ({ type := t } : FcgiUnknownTypeBody).toBytes

/-- A begin-request that reaches `beginRequestCallback`. -/
def BeginsRequest (t : UInt8) (content : Bytes) : Prop :=
  t = fcgiBeginRequest ∧ FcgiBeginRequestBody.size ≤ content.length ∧
    (FcgiBeginRequestBody.cast content).role = fcgiResponder

instance (t : UInt8) (content : Bytes) : Decidable (BeginsRequest t content) :=
  inferInstanceAs (Decidable (_ ∧ _ ∧ _))

/-- The `FCGI_KEEP_CONN` bit of a begin-request. -/
def KeepsConnection (content : Bytes) : Prop :=
  (FcgiBeginRequestBody.cast content).flags &&& fcgiKeepConn ≠ 0

/-- A stream packet for an entry whose stream is still open, with the change it makes. -/
inductive Receives (t : UInt8) (content : Bytes) (e : Entry) :
    (RequestState → RequestData → RequestState × RequestData) → Prop
  | stdin : t = fcgiStdin → e.state &&& inCompleted = 0 →
      Receives t content e (ConnectionData.receiveStdin content)
  | params : t = fcgiParams → e.state &&& paramsCompleted = 0 →
      Receives t content e (ConnectionData.receiveParams content)

/-- The packets that are answered by an exception, each with its reason. -/
inductive Rejects (d : ConnectionData) (r : Nat) (t : UInt8) (content : Bytes) : Prop
  | shortBegin : t = fcgiBeginRequest → content.length < FcgiBeginRequestBody.size →
      Rejects d r t content
  | idInUse : BeginsRequest t content → d.requestMap[r]? ≠ none → Rejects d r t content
  | streamUnknown : t = fcgiStdin ∨ t = fcgiParams → d.requestMap[r]? = none →
      Rejects d r t content
  | stdinClosed {e : Entry} : t = fcgiStdin → d.requestMap[r]? = some e →
      e.state &&& inCompleted ≠ 0 → Rejects d r t content
  | paramsClosed {e : Entry} : t = fcgiParams → d.requestMap[r]? = some e →
      e.state &&& paramsCompleted ≠ 0 → Rejects d r t content
  | data : t = fcgiData → Rejects d r t content

/-- The assertions that a CLOSED connection fails. -/
def closedAssertions : List String :=
  ["PacketSocket::writePacket: _state != CLOSED",
    "Connection::handleTransceiverEvent: _state != CLOSED"]

/-- Everything one call of `handleNewPacket` can do behind its first event. -/
inductive PacketEffect (c : Connection) (r : Nat) (t : UInt8) (content : Bytes) :
    Outcome Event Connection Unit → Prop
  | rejected {what : String} : Rejects c.data r t content →
      PacketEffect c r t content ⟨.throw what, c, []⟩
  | answered {r' : Nat} {t' : UInt8} {body : Bytes} {fs : List (Option Nat)} :
      Answer r t content r' t' body → c.state ≠ .closed → fs <:+ c.socket.writeFaults →
      PacketEffect c r t content
        ⟨.ret (), c.withFaults fs, (bufferRecords r' t' body).map wroteEvent⟩
  | answerFailed {r' : Nat} {t' : UInt8} {body part : Bytes} {fs : List (Option Nat)} {k : Nat} :
      Answer r t content r' t' body → c.state ≠ .closed →
      (∃ n, c.socket.writeFaults[k]? = some (some n)) →
      PacketEffect c r t content
        ⟨.ret (), (c.withFaults fs).shut, c.failedWrite (bufferRecords r' t' body) k part⟩
  | began : BeginsRequest t content → KeepsConnection content → c.data.requestMap[r]? = none →
      PacketEffect c r t content
        ⟨.ret (), { c with data := c.data.insertNew r }, [.began r c.data.nextPtr]⟩
  | beganLast : BeginsRequest t content → ¬ KeepsConnection content →
      c.data.requestMap[r]? = none → c.state ≠ .closed →
      PacketEffect c r t content
        ⟨.ret (), { c with data := c.data.insertNew r, state := .closing },
          [.began r c.data.nextPtr]⟩
  | abortUnknown {what : String} {fs : List (Option Nat)} : t = fcgiAbortRequest →
      c.state ≠ .closed → c.data.requestMap[r]? = none → fs <:+ c.socket.writeFaults →
      PacketEffect c r t content ⟨.throw what, c.withFaults fs, [wroteEvent (abortRecord r)]⟩
  | aborted {e : Entry} {fs : List (Option Nat)} : t = fcgiAbortRequest →
      c.state ≠ .closed → c.data.requestMap[r]? = some e → fs <:+ c.socket.writeFaults →
      ¬ (c.state = .closing ∧ (c.data.erase r).size = 0) →
      PacketEffect c r t content
        ⟨.ret (), { c.withFaults fs with data := c.data.erase r },
          [wroteEvent (abortRecord r), .erased r e.ptr]⟩
  | abortedLast {e : Entry} {fs : List (Option Nat)} : t = fcgiAbortRequest →
      c.state = .closing → c.data.requestMap[r]? = some e → fs <:+ c.socket.writeFaults →
      (c.data.erase r).size = 0 →
      PacketEffect c r t content
        ⟨.ret (), { c.withFaults fs with data := c.data.erase r }.shut,
          [wroteEvent (abortRecord r), .erased r e.ptr, .cleared 0, .closeCallback]⟩
  | abortFailed {what : String} {part : Bytes} {fs : List (Option Nat)} : t = fcgiAbortRequest →
      c.state ≠ .closed → (∃ n, c.socket.writeFaults.head? = some (some n)) →
      PacketEffect c r t content
        ⟨.throw what, (c.withFaults fs).shut,
          [.writeError part, .cleared c.data.size, .closeCallback]⟩
  | received {e : Entry} {f : RequestState → RequestData → RequestState × RequestData} :
      Receives t content e f → c.data.requestMap[r]? = some e →
      Entry.ready ⟨(f e.state e.data).1, e.ptr, (f e.state e.data).2⟩ = false →
      PacketEffect c r t content ⟨.ret (), { c with data := c.data.modifyEntry r f }, []⟩
  | receivedReady {e : Entry} {f : RequestState → RequestData → RequestState × RequestData} :
      Receives t content e f → c.data.requestMap[r]? = some e →
      Entry.ready ⟨(f e.state e.data).1, e.ptr, (f e.state e.data).2⟩ = true →
      PacketEffect c r t content
        ⟨.ret (), { c with data := c.data.modifyEntry r f },
          [.requestReady r e.ptr (f e.state e.data).2]⟩
  | died {what : String} {c' : Connection} {es : List Event} : c.state = .closed →
      c'.state = .closed → es = [] ∨ es = [.began r c.data.nextPtr] →
        what ∈ closedAssertions →
      PacketEffect c r t content ⟨.abort what, c', es⟩

/-- A packet that the record socket answers. -/
theorem answer_effect {c : Connection} (hwf : c.WF) {r r' : Nat} {t t' : UInt8}
    {content body : Bytes} (h : Answer r t content r' t' body) :
    PacketEffect c r t content (recordSocket.answer r' t' body c) := by
  by_cases hc : c.state = .closed
  · have hrun := writeBuffer_run_closed (hwf.mp hc) r' t' body
    rw [answer, Act.bind_of_abort hrun]
    exact .died hc hc (.inl rfl) (by simp [closedAssertions])
  · have hs : c.socket.state ≠ .closed := fun hs => hc (hwf.mpr hs)
    obtain ha | ⟨k, part, _, hn, ha⟩ := answer_cases hs hc r' t' body
    · rw [ha]
      exact .answered h hc (List.drop_suffix _ _)
    · rw [ha]
      exact .answerFailed h hc hn

/-- A packet that begins a request. -/
theorem beginRequest_effect {c : Connection} {r : Nat} {t : UInt8} {content : Bytes}
    (h : BeginsRequest t content) :
    PacketEffect c r t content
      ((onData (ConnectionData.handleBeginRequest r) >>= fun _ =>
        Act.when ((FcgiBeginRequestBody.cast content).flags &&& fcgiKeepConn = 0)
          (handleTransceiverEvent .connectionWindDown)) c) := by
  have hrun := ConnectionData.handleBeginRequest_run c.data r
  by_cases hid : c.data.requestMap[r]?.isSome
  · rw [if_pos hid] at hrun
    rw [Act.bind_of_throw (onData_of_throw hrun)]
    exact .rejected (.idInUse h (Option.isSome_iff_ne_none.mp hid))
  · have hnone : c.data.requestMap[r]? = none := by simpa using hid
    rw [if_neg hid] at hrun
    have hbegin := onData_of_ret hrun
    simp only [runCallback, Act.pure_run, Outcome.after_mk, List.append_nil] at hbegin
    rw [Act.bind_of_ret hbegin]
    by_cases hkeep : (FcgiBeginRequestBody.cast content).flags &&& fcgiKeepConn = 0
    · simp only [hkeep, decide_true, Act.when_true]
      by_cases hc : c.state = .closed
      · rw [handleTransceiverEvent_run_closed (c := { c with data := c.data.insertNew r }) hc]
        exact .died hc hc (.inr rfl) (by simp [closedAssertions])
      · have hsize : (c.data.insertNew r).size ≠ 0 := by
          intro hz
          have hall := (ConnectionData.size_requestMap_eq_zero_iff _).mp hz r
          rw [ConnectionData.getElem?_insertNew] at hall
          simp at hall
        rw [connectionWindDown_run (c := { c with data := c.data.insertNew r }) hc hsize]
        exact .beganLast h (fun hk => hk hkeep) hnone hc
    · simp only [hkeep, decide_false, Act.when_false, Act.pure_run]
      exact .began h hkeep hnone

/-- The answer to an abort is one record. -/
theorem bufferRecords_aborted (r : Nat) :
    bufferRecords r fcgiRequestComplete abortedBody = [abortRecord r] :=
  bufferRecords_short r fcgiRequestComplete (by decide)

/-- An abort is answered before its id is looked up. -/
theorem handleAbortRequest_answered {c : Connection} (hs : c.socket.state ≠ .closed) {r : Nat}
    (h : c.socket.Takes 1) :
    recordSocket.handleAbortRequest r c =
      (onData (ConnectionData.handleAbortRequest r)
        (c.withFaults (c.socket.writeFaults.drop 1))).after [wroteEvent (abortRecord r)] := by
  have ha := answer_of_takes (r := r) (t := fcgiRequestComplete) (b := abortedBody) hs
    (by rw [bufferRecords_aborted]; exact h)
  rw [bufferRecords_aborted] at ha
  rw [handleAbortRequest, Act.bind_of_ret ha]
  rfl

/-- The answer fails: the connection is closed, and the id is gone from the map. -/
theorem handleAbortRequest_failed {c : Connection} (hs : c.socket.state ≠ .closed)
    (hc : c.state ≠ .closed) {r : Nat} (h : c.socket.FailsAt 0) :
    ∃ part, recordSocket.handleAbortRequest r c =
      ⟨.throw "abort requestId does not exist", (c.withFaults (c.socket.writeFaults.drop 1)).shut,
        [.writeError part, .cleared c.data.size, .closeCallback]⟩ := by
  obtain ⟨part, ha⟩ := answer_of_failsAt (r := r) (t := fcgiRequestComplete) (b := abortedBody)
    hs hc (by rw [bufferRecords_aborted]; exact Nat.one_pos) h
  have hrun := ConnectionData.handleAbortRequest_run c.data.clear r
  simp only [ConnectionData.requestMap_clear, Std.ExtTreeMap.getElem?_empty] at hrun
  have habort := onData_of_throw (c := (c.withFaults (c.socket.writeFaults.drop (0 + 1))).shut) hrun
  refine ⟨part, ?_⟩
  rw [handleAbortRequest, Act.bind_of_ret ha]
  simp only [abortRequestCallback_recordSocket, habort]
  rfl

/-- A packet that aborts one. -/
theorem abortRequest_effect {c : Connection} (hwf : c.WF) {r : Nat} {content : Bytes} :
    PacketEffect c r fcgiAbortRequest content (recordSocket.handleAbortRequest r c) := by
  by_cases hc : c.state = .closed
  · have hrun := writeBuffer_run_closed (hwf.mp hc) r fcgiRequestComplete abortedBody
    have hanswer : recordSocket.answer r fcgiRequestComplete abortedBody c = _ :=
      Act.bind_of_abort hrun
    rw [handleAbortRequest, Act.bind_of_abort hanswer]
    exact .died hc hc (.inl rfl) (by simp [closedAssertions])
  have hs : c.socket.state ≠ .closed := fun hs => hc (hwf.mpr hs)
  obtain htakes | ⟨k, hk, hfails⟩ := c.socket.takes_or_failsAt 1
  · rw [handleAbortRequest_answered hs htakes]
    have hrun := ConnectionData.handleAbortRequest_run c.data r
    cases he : c.data.requestMap[r]? with
    | none =>
        rw [he] at hrun
        rw [onData_of_throw (c := c.withFaults (c.socket.writeFaults.drop 1)) hrun]
        exact .abortUnknown rfl hc he (List.drop_suffix _ _)
    | some e =>
        rw [he] at hrun
        rw [onData_of_ret (c := c.withFaults (c.socket.writeFaults.drop 1)) hrun]
        have hcb := runCallback_emptyCallback
          { c.withFaults (c.socket.writeFaults.drop 1) with data := c.data.erase r }
        simp only at hcb
        rw [hcb]
        split
        · next hlast => exact .abortedLast rfl hlast.1 he (List.drop_suffix _ _) hlast.2
        · next hlast => exact .aborted rfl hc he (List.drop_suffix _ _) hlast
  · have hzero : k = 0 := by omega
    subst hzero
    obtain ⟨part, ha⟩ := handleAbortRequest_failed hs hc hfails
    rw [ha]
    obtain ⟨_, n, hn⟩ := hfails
    rw [← List.head?_eq_getElem?] at hn
    exact .abortFailed rfl hc ⟨n, hn⟩

/-- The callback of a stream packet is the request-ready one, or none. -/
theorem stream_effect {c : Connection} {r : Nat} {t : UInt8} {content : Bytes} {e : Entry}
    {f : RequestState → RequestData → RequestState × RequestData}
    {x : Act Event ConnectionData (Option ConnectionData.Callback)}
    (he : c.data.requestMap[r]? = some e) (hf : Receives t content e f)
    (hx : x c.data =
      ⟨.ret ((c.data.modifyEntry r f).readyCallback r), c.data.modifyEntry r f, []⟩) :
    PacketEffect c r t content (onData x c) := by
  rw [onData_of_ret hx]
  have hentry : (c.data.modifyEntry r f).requestMap[r]? =
      some ⟨(f e.state e.data).1, e.ptr, (f e.state e.data).2⟩ := by
    rw [ConnectionData.getElem?_modifyEntry, if_pos rfl, he]
    rfl
  simp only [ConnectionData.readyCallback, hentry]
  split
  · next hready => exact .receivedReady hf he hready
  · next hready => exact .received hf he (by simpa using hready)

/-- A packet of STDIN. -/
theorem stdin_effect {c : Connection} {r : Nat} {content : Bytes} :
    PacketEffect c r fcgiStdin content (onData (ConnectionData.handleStdin r content) c) := by
  have hrun := ConnectionData.handleStdin_run c.data r content
  cases he : c.data.requestMap[r]? with
  | none =>
      rw [he] at hrun
      rw [onData_of_throw hrun]
      exact .rejected (.streamUnknown (.inl rfl) he)
  | some e =>
      rw [he] at hrun
      by_cases hbit : e.state &&& inCompleted = 0
      · simp only [hbit, ne_eq, not_true_eq_false, if_false] at hrun
        exact stream_effect he (.stdin rfl hbit) hrun
      · simp only [hbit, ne_eq, not_false_eq_true, if_true] at hrun
        rw [onData_of_throw hrun]
        exact .rejected (.stdinClosed rfl he hbit)

/-- A packet of PARAMS. -/
theorem params_effect {c : Connection} {r : Nat} {content : Bytes} :
    PacketEffect c r fcgiParams content (onData (ConnectionData.handleParams r content) c) := by
  have hrun := ConnectionData.handleParams_run c.data r content
  cases he : c.data.requestMap[r]? with
  | none =>
      rw [he] at hrun
      rw [onData_of_throw hrun]
      exact .rejected (.streamUnknown (.inr rfl) he)
  | some e =>
      rw [he] at hrun
      by_cases hbit : e.state &&& paramsCompleted = 0
      · simp only [hbit, ne_eq, not_true_eq_false, if_false] at hrun
        exact stream_effect he (.params rfl hbit) hrun
      · simp only [hbit, ne_eq, not_false_eq_true, if_true] at hrun
        rw [onData_of_throw hrun]
        exact .rejected (.paramsClosed rfl he hbit)

/-- **Every packet**: the `switch` does one of the things `PacketEffect` lists. -/
theorem dispatch_effect {c : Connection} (hwf : c.WF) (r : Nat) (t : UInt8) (content : Bytes) :
    PacketEffect c r t content (recordSocket.dispatch r t content c) := by
  unfold dispatch
  split
  · next ht => exact answer_effect hwf (.getValues ht)
  split
  · next ht =>
      unfold RecordSocket.handleBeginRequest
      split
      · next hlen => exact .rejected (.shortBegin ht hlen)
      · next hlen =>
          rw [Nat.not_lt] at hlen
          dsimp only
          split
          · next hrole => exact answer_effect hwf (.unknownRole ht hlen hrole)
          · next hrole =>
              rw [ne_eq, not_not] at hrole
              exact beginRequest_effect ⟨ht, hlen, hrole⟩
  split
  · next ht =>
      subst ht
      exact abortRequest_effect hwf
  split
  · next ht =>
      subst ht
      exact params_effect
  split
  · next ht =>
      subst ht
      exact stdin_effect
  split
  · next ht => exact .rejected (.data ht)
  · next h1 h2 h3 h4 h5 h6 => exact answer_effect hwf (.unknownType (by simp_all))

/-! ## Replies -/

/-- The records of one of the two optional buffers of a reply. -/
def streamRecords (r : Nat) (t : UInt8) (buffer : Bytes) : List (FcgiHeader × Bytes) :=
  if buffer.length ≠ 0 then bufferRecords r t buffer else []

/-- The record a reply ends with. -/
def endRecord (r : Nat) (appStatus : BitVec 32) : FcgiHeader × Bytes :=
  (fragmentHeader r fcgiEndRequest (endRequestBody appStatus).toBytes.length,
    (endRequestBody appStatus).toBytes)

/-- The records of a reply before the last one. -/
def replyStreams (r : Nat) (d : RequestData) : List (FcgiHeader × Bytes) :=
  streamRecords r fcgiStdout d.outBuffer ++ (streamRecords r fcgiStderr d.errBuffer ++
    (bufferRecords r fcgiStdout [] ++ bufferRecords r fcgiStderr []))

/-- The records of a reply. -/
def replyRecords (r : Nat) (d : RequestData) : List (FcgiHeader × Bytes) :=
  replyStreams r d ++ [endRecord r d.appStatus]

/-- The connection after the socket failed in the middle of a write. -/
def cut (c : Connection) (fs : List (Option Nat)) : Connection :=
  { c with socket := (c.socket.withFaults fs).shut }

/-- `x` writes the records `ps` one after the other, on an open socket, until
one fails; `code` is the error code in its result. -/
def Sends {α : Type} (code : α → Bool) (x : Act Event Connection α)
    (ps : List (FcgiHeader × Bytes)) : Prop :=
  ∀ c : Connection, c.socket.state ≠ .closed →
    (∃ a, code a = false ∧
      x c = ⟨.ret a, c.withFaults (c.socket.writeFaults.drop ps.length), ps.map wroteEvent⟩) ∨
    ∃ a k part, code a = true ∧ k < ps.length ∧
      (∃ n, c.socket.writeFaults[k]? = some (some n)) ∧
      x c = ⟨.ret a, c.cut (c.socket.writeFaults.drop (k + 1)),
        (ps.take k).map wroteEvent ++ [.writeError part]⟩

/-- The same, and it is the first failing write that ends it. -/
def SendsUntil {α : Type} (code : α → Bool) (x : Act Event Connection α)
    (ps : List (FcgiHeader × Bytes)) : Prop :=
  ∀ c : Connection, c.socket.state ≠ .closed →
    (c.socket.Takes ps.length → ∃ a, code a = false ∧
      x c = ⟨.ret a, c.withFaults (c.socket.writeFaults.drop ps.length), ps.map wroteEvent⟩) ∧
    ∀ k < ps.length, c.socket.FailsAt k → ∃ a part, code a = true ∧
      x c = ⟨.ret a, c.cut (c.socket.writeFaults.drop (k + 1)),
        (ps.take k).map wroteEvent ++ [.writeError part]⟩

/-- What goes out until a failure, with what becomes of it. -/
theorem SendsUntil.sends {α : Type} {code : α → Bool} {x : Act Event Connection α}
    {ps : List (FcgiHeader × Bytes)} (h : SendsUntil code x ps) : Sends code x ps := by
  intro c hs
  obtain ⟨hok, hfail⟩ := h c hs
  obtain htakes | ⟨k, hk, hfails⟩ := c.socket.takes_or_failsAt ps.length
  · exact .inl (hok htakes)
  · obtain ⟨a, part, ha, hx⟩ := hfail k hk hfails
    exact .inr ⟨a, k, part, ha, hk, hfails.2, hx⟩

/-- `writeBuffer` sends the records of its buffer. -/
theorem sendsUntil_writeBuffer (r : Nat) (t : UInt8) (b : Bytes) :
    SendsUntil id (recordSocket.writeBuffer r t b) (bufferRecords r t b) := by
  intro c hs
  rw [writeBuffer_run hs]
  constructor
  · intro htakes
    rw [writeRecords_of_takes _ htakes]
    exact ⟨false, rfl, rfl⟩
  · intro k hk hfails
    obtain ⟨part, h⟩ := writeRecords_of_failsAt _ hk hfails
    rw [h]
    exact ⟨true, part, rfl, rfl⟩

/-- `sendStream` sends those of a buffer that is not empty. -/
theorem sendsUntil_sendStream (r : Nat) (t : UInt8) (b : Bytes) :
    SendsUntil id (recordSocket.sendStream r t b) (streamRecords r t b) := by
  unfold sendStream streamRecords
  split
  · exact sendsUntil_writeBuffer r t b
  · exact fun c _ => ⟨fun _ => ⟨false, rfl, rfl⟩,
      fun k hk => absurd hk (Nat.not_lt_zero k)⟩

/-- One write behind the other, which is only tried when the first went well. -/
theorem SendsUntil.seq {α : Type} {code : α → Bool} {a : α} {x : Act Event Connection Bool}
    {y : Act Event Connection α} {ps qs : List (FcgiHeader × Bytes)} (hx : SendsUntil id x ps)
    (ha : code a = true) (hy : SendsUntil code y qs) :
    SendsUntil code (x >>= fun ec => if ec then pure a else y) (ps ++ qs) := by
  intro c hs
  have hs' : (c.withFaults (c.socket.writeFaults.drop ps.length)).socket.state ≠ .closed := hs
  obtain ⟨hxok, hxfail⟩ := hx c hs
  obtain ⟨hyok, hyfail⟩ := hy _ hs'
  rw [List.length_append]
  constructor
  · intro htakes
    obtain ⟨ec, hec, h⟩ := hxok (htakes.mono (Nat.le_add_right _ _))
    obtain ⟨b, hb, h'⟩ := hyok htakes.drop
    have hec : ec = false := hec
    subst hec
    refine ⟨b, hb, ?_⟩
    rw [Act.bind_of_ret h]
    simp only [Bool.false_eq_true, if_false, h']
    simp [withFaults]
  · intro k hk hfails
    by_cases hlt : k < ps.length
    · -- the first part fails, and the second is never tried
      obtain ⟨ec, part, hec, h⟩ := hxfail k hlt hfails
      have hec : ec = true := hec
      subst hec
      refine ⟨a, part, ha, ?_⟩
      rw [Act.bind_of_ret h]
      simp [List.take_append_of_le_length (Nat.le_of_lt hlt)]
    · obtain ⟨m, rfl⟩ := Nat.exists_eq_add_of_le (Nat.not_lt.mp hlt)
      obtain ⟨ec, hec, h⟩ := hxok (hfails.1.mono (Nat.le_add_right _ _))
      obtain ⟨b, part, hb, h'⟩ := hyfail m (by omega) hfails.drop
      have hec : ec = false := hec
      subst hec
      refine ⟨b, part, hb, ?_⟩
      rw [Act.bind_of_ret h]
      simp only [Bool.false_eq_true, if_false, h']
      have hdrop : ps.length + (m + 1) = ps.length + m + 1 := rfl
      simp [withFaults, cut, List.take_append, List.take_of_length_le, hdrop]

/-- What is returned may be put into another form. -/
theorem SendsUntil.map {α : Type} {code : α → Bool} {x : Act Event Connection Bool}
    {f : Bool → α}
    {ps : List (FcgiHeader × Bytes)} (hx : SendsUntil id x ps) (hf : ∀ ec, code (f ec) = ec) :
    SendsUntil code (x >>= fun ec => pure (f ec)) ps := by
  intro c hs
  obtain ⟨hok, hfail⟩ := hx c hs
  constructor
  · intro htakes
    obtain ⟨ec, hec, h⟩ := hok htakes
    rw [Act.bind_of_ret h]
    exact ⟨f ec, (hf ec).trans hec, by simp⟩
  · intro k hk hfails
    obtain ⟨ec, part, hec, h⟩ := hfail k hk hfails
    rw [Act.bind_of_ret h]
    exact ⟨f ec, part, (hf ec).trans hec, by simp⟩

/-- The end of a reply is sent in three pieces. -/
theorem sendsUntil_sendEnd (r : Nat) (appStatus : BitVec 32) :
    SendsUntil id (recordSocket.sendEnd r appStatus)
      (bufferRecords r fcgiStdout [] ++ (bufferRecords r fcgiStderr [] ++
        [endRecord r appStatus])) := by
  have hlast : bufferRecords r fcgiEndRequest (endRequestBody appStatus).toBytes =
      [endRecord r appStatus] := bufferRecords_short r fcgiEndRequest (by simp)
  rw [← hlast]
  exact (sendsUntil_writeBuffer r fcgiStdout []).seq rfl
    ((sendsUntil_writeBuffer r fcgiStderr []).seq rfl (sendsUntil_writeBuffer r fcgiEndRequest _))

/-- A reply goes out whole, or the socket fails on the way. -/
theorem sendsUntil_sendReply (r : Nat) (d : RequestData) :
    SendsUntil Reply.ec (recordSocket.sendReply r d.outBuffer d.errBuffer d.appStatus)
      (replyRecords r d) := by
  have hrecords : replyRecords r d = streamRecords r fcgiStdout d.outBuffer ++
      (streamRecords r fcgiStderr d.errBuffer ++ (bufferRecords r fcgiStdout [] ++
        (bufferRecords r fcgiStderr [] ++ [endRecord r d.appStatus]))) := by
    simp [replyRecords, replyStreams]
  rw [hrecords]
  exact (sendsUntil_sendStream r fcgiStdout d.outBuffer).seq rfl
    ((sendsUntil_sendStream r fcgiStderr d.errBuffer).seq rfl
      ((sendsUntil_sendEnd r d.appStatus).map fun _ => rfl))

/-- On a closed socket the first write of a reply ends the process. -/
theorem sendReply_run_closed {c : Connection} (h : c.socket.state = .closed) (r : Nat)
    (out err : Bytes) (appStatus : BitVec 32) :
    recordSocket.sendReply r out err appStatus c =
      ⟨.abort "PacketSocket::writePacket: _state != CLOSED", c, []⟩ := by
  have hwrite := fun (t : UInt8) (b : Bytes) => writeBuffer_run_closed h r t b
  have hskip : (pure false : Act Event Connection Bool) c = ⟨.ret false, c, []⟩ := rfl
  unfold sendReply sendStream
  split
  · rw [Act.bind_of_abort (hwrite _ _)]
  · rw [Act.bind_of_ret hskip]
    simp only [Bool.false_eq_true, if_false, Outcome.after_nil]
    split
    · rw [Act.bind_of_abort (hwrite _ _)]
    · rw [Act.bind_of_ret hskip]
      simp only [Bool.false_eq_true, if_false, Outcome.after_nil, sendEnd]
      rw [Act.bind_of_abort (Act.bind_of_abort (hwrite _ _))]

/-- Everything one call of `commitReplyImpl` can do. -/
inductive CommitEffect (c : Connection) (r ptr : Nat) : Outcome Event Connection Unit → Prop
  | stale : c.data.isValidRequest r ptr = false → CommitEffect c r ptr ⟨.ret (), c, []⟩
  | replied {e : Entry} {fs : List (Option Nat)} : c.state ≠ .closed →
      c.data.requestMap[r]? = some e → e.ptr = ptr → e.state &&& inCompleted ≠ 0 →
      fs <:+ c.socket.writeFaults → ¬ (c.state = .closing ∧ (c.data.erase r).size = 0) →
      CommitEffect c r ptr
        ⟨.ret (), { c.withFaults fs with data := c.data.erase r },
          .sendReply r ptr :: (replyRecords r e.data).map wroteEvent ++ [.erased r ptr]⟩
  | repliedLast {e : Entry} {fs : List (Option Nat)} : c.state = .closing →
      c.data.requestMap[r]? = some e → e.ptr = ptr → e.state &&& inCompleted ≠ 0 →
      fs <:+ c.socket.writeFaults → (c.data.erase r).size = 0 →
      CommitEffect c r ptr
        ⟨.ret (), { c.withFaults fs with data := c.data.erase r }.shut,
          .sendReply r ptr :: (replyRecords r e.data).map wroteEvent ++
            [.erased r ptr, .cleared 0, .closeCallback]⟩
  | replyFailed {e : Entry} {fs : List (Option Nat)} {k size : Nat} {part : Bytes} :
      c.state ≠ .closed → c.data.requestMap[r]? = some e → e.ptr = ptr →
      (∃ n, c.socket.writeFaults[k]? = some (some n)) →
      CommitEffect c r ptr
        ⟨.ret (), (c.withFaults fs).shut,
          .sendReply r ptr :: ((replyRecords r e.data).take k).map wroteEvent ++
            [.writeError part, .cleared size, .closeCallback]⟩
  | incomplete {e : Entry} {c' : Connection} :
      c.data.requestMap[r]? = some e → e.ptr = ptr → e.state &&& inCompleted = 0 →
      CommitEffect c r ptr ⟨.abort "ConnectionData::cleanupRequest: IN_COMPLETED", c',
        .sendReply r ptr :: (replyRecords r e.data).map wroteEvent⟩
  | died {e : Entry} {what : String} {c' : Connection} : c.state = .closed →
      c.data.requestMap[r]? = some e → e.ptr = ptr → what ∈ closedAssertions →
      CommitEffect c r ptr ⟨.abort what, c', [.sendReply r ptr]⟩

/-- The entry of a reply leaves the map, and with the last one a connection
that winds down closes. -/
theorem cleanupRequest_run {c : Connection} {r : Nat} {e : Entry}
    (he : c.data.requestMap[r]? = some e) :
    onData (ConnectionData.cleanupRequest r) c =
      if e.state &&& inCompleted = 0 then
        ⟨.abort "ConnectionData::cleanupRequest: IN_COMPLETED", c, []⟩
      else if c.state = .closing ∧ (c.data.erase r).size = 0 then
        ⟨.ret (), { c with data := c.data.erase r }.shut,
          [.erased r e.ptr, .cleared 0, .closeCallback]⟩
      else
        ⟨.ret (), { c with data := c.data.erase r }, [.erased r e.ptr]⟩ := by
  have hrun := ConnectionData.cleanupRequest_run c.data r
  simp only [he] at hrun
  by_cases hbit : e.state &&& inCompleted = 0
  · simp only [hbit, ne_eq, not_true_eq_false, if_false] at hrun
    rw [onData_of_abort hrun, if_pos hbit]
  · simp only [hbit, ne_eq, not_false_eq_true, if_true] at hrun
    have hcb := runCallback_emptyCallback { c with data := c.data.erase r }
    rw [onData_of_ret hrun, if_neg hbit]
    simp only at hcb
    rw [hcb]
    split <;> rfl

/-- The object of a reply with what `sendReply` left of its buffers. -/
def withReply (d : ConnectionData) (r : Nat) (reply : Reply) : ConnectionData :=
  d.modifyEntry r fun state data =>
    (state, { data with outBuffer := reply.outBuffer, errBuffer := reply.errBuffer })

/-- A reply: it is sent, its buffers are taken, and the entry is cleaned up or
the connection closed. -/
theorem commitReplyImpl_run {c : Connection} {r : Nat} {e : Entry}
    (he : c.data.requestMap[r]? = some e) {reply : Reply} {c' : Connection} {es : List Event}
    (hsend : recordSocket.sendReply r e.data.outBuffer e.data.errBuffer e.data.appStatus c =
      ⟨.ret reply, c', es⟩) :
    commitReplyImpl r e.ptr c =
      ((if reply.ec then closeAndCleanup else onData (ConnectionData.cleanupRequest r))
        { c' with data := withReply c'.data r reply }).after (.sendReply r e.ptr :: es) := by
  have hvalid : c.data.isValidRequest r e.ptr = true := by
    simp [ConnectionData.isValidRequest, he]
  simp only [commitReplyImpl, Act.get_bind_run, he, hvalid, Act.when_true, Act.emit_bind_run]
  rw [Act.bind_of_ret hsend]
  rfl

/-- The entry of a reply leaves the map as if the buffers had not changed. -/
theorem cleanupRequest_withReply {c : Connection} {r : Nat} {e : Entry}
    (he : c.data.requestMap[r]? = some e) (reply : Reply) :
    onData (ConnectionData.cleanupRequest r) { c with data := withReply c.data r reply } =
      if e.state &&& inCompleted = 0 then
        ⟨.abort "ConnectionData::cleanupRequest: IN_COMPLETED",
          { c with data := withReply c.data r reply }, []⟩
      else if c.state = .closing ∧ (c.data.erase r).size = 0 then
        ⟨.ret (), { c with data := c.data.erase r }.shut,
          [.erased r e.ptr, .cleared 0, .closeCallback]⟩
      else
        ⟨.ret (), { c with data := c.data.erase r }, [.erased r e.ptr]⟩ := by
  have hentry : (withReply c.data r reply).requestMap[r]? = some ⟨e.state, e.ptr,
      { e.data with outBuffer := reply.outBuffer, errBuffer := reply.errBuffer }⟩ := by
    rw [withReply, ConnectionData.getElem?_modifyEntry, if_pos rfl, he]
    rfl
  have herase : (withReply c.data r reply).erase r = c.data.erase r :=
    ConnectionData.erase_modifyEntry ..
  have hclean := cleanupRequest_run (c := { c with data := withReply c.data r reply }) hentry
  simp only [herase] at hclean
  exact hclean

/-- A reply that went out whole takes its entry with it. -/
theorem commitReplyImpl_sent {c : Connection} {r : Nat} {e : Entry}
    (he : c.data.requestMap[r]? = some e) (hready : e.state &&& inCompleted ≠ 0) {reply : Reply}
    {fs : List (Option Nat)} {es : List Event}
    (hsend : recordSocket.sendReply r e.data.outBuffer e.data.errBuffer e.data.appStatus c =
      ⟨.ret reply, c.withFaults fs, es⟩) (hec : reply.ec = false) :
    commitReplyImpl r e.ptr c =
      if c.state = .closing ∧ (c.data.erase r).size = 0 then
        ⟨.ret (), { c.withFaults fs with data := c.data.erase r }.shut,
          .sendReply r e.ptr :: es ++ [.erased r e.ptr, .cleared 0, .closeCallback]⟩
      else
        ⟨.ret (), { c.withFaults fs with data := c.data.erase r },
          .sendReply r e.ptr :: es ++ [.erased r e.ptr]⟩ := by
  have hrun := commitReplyImpl_run he hsend
  simp only [hec, Bool.false_eq_true, if_false] at hrun
  have hclean := cleanupRequest_withReply (c := c.withFaults fs) he reply
  rw [if_neg hready] at hclean
  by_cases hlast : c.state = .closing ∧ (c.data.erase r).size = 0
  · rw [hrun, if_pos hlast]
    exact congrArg (Outcome.after (.sendReply r e.ptr :: es)) (hclean.trans (if_pos hlast))
  · rw [hrun, if_neg hlast]
    exact congrArg (Outcome.after (.sendReply r e.ptr :: es)) (hclean.trans (if_neg hlast))

/-- A reply that did not go out closes the connection. -/
theorem commitReplyImpl_cut {c : Connection} {r : Nat} {e : Entry}
    (he : c.data.requestMap[r]? = some e) {reply : Reply} {fs : List (Option Nat)}
    {es : List Event}
    (hsend : recordSocket.sendReply r e.data.outBuffer e.data.errBuffer e.data.appStatus c =
      ⟨.ret reply, c.cut fs, es⟩) (hec : reply.ec = true) :
    commitReplyImpl r e.ptr c =
      ⟨.ret (), (c.withFaults fs).shut, .sendReply r e.ptr :: es ++
        [.cleared (withReply c.data r reply).size, .closeCallback]⟩ := by
  rw [commitReplyImpl_run he hsend]
  simp only [hec, if_true, closeAndCleanup_run]
  simp [cut, shut, withFaults, withReply]

/-- Each way in which a queued reply ends. -/
theorem commitReplyImpl_effect {c : Connection} (hwf : c.WF) (r ptr : Nat) :
    CommitEffect c r ptr (commitReplyImpl r ptr c) := by
  cases he : c.data.requestMap[r]? with
  | none =>
      simp only [commitReplyImpl, Act.get_bind_run, he, Act.pure_run]
      exact .stale (by simp [ConnectionData.isValidRequest, he])
  | some e =>
      have hvalid : c.data.isValidRequest r ptr = (e.ptr == ptr) := by
        simp [ConnectionData.isValidRequest, he]
      by_cases hptr : e.ptr = ptr
      · subst hptr
        by_cases hc : c.state = .closed
        · simp only [commitReplyImpl, Act.get_bind_run, he, hvalid, beq_self_eq_true,
            Act.when_true, Act.emit_bind_run]
          rw [Act.bind_of_abort (sendReply_run_closed (hwf.mp hc) r _ _ _)]
          exact .died hc he rfl (by simp [closedAssertions])
        have hs : c.socket.state ≠ .closed := fun hs => hc (hwf.mpr hs)
        obtain ⟨reply, hec, h⟩ | ⟨reply, k, part, hec, _, hn, h⟩ :=
          (sendsUntil_sendReply r e.data).sends c hs
        · by_cases hbit : e.state &&& inCompleted = 0
          · have hrun := commitReplyImpl_run he h
            simp only [hec, Bool.false_eq_true, if_false] at hrun
            rw [hrun, cleanupRequest_withReply
              (c := c.withFaults (c.socket.writeFaults.drop (replyRecords r e.data).length)) he,
              if_pos hbit, Outcome.after_mk, List.append_nil]
            exact .incomplete he rfl hbit
          · rw [commitReplyImpl_sent he hbit h hec]
            split
            · next hlast => exact .repliedLast hlast.1 he rfl hbit (List.drop_suffix _ _) hlast.2
            · next hlast => exact .replied hc he rfl hbit (List.drop_suffix _ _) hlast
        · rw [commitReplyImpl_cut he h hec]
          have heffect := @CommitEffect.replyFailed c r e.ptr e (c.socket.writeFaults.drop (k + 1))
            k (withReply c.data r reply).size part hc he rfl hn
          simpa using heffect
      · have hne : (e.ptr == ptr) = false := by simpa using hptr
        simp only [commitReplyImpl, Act.get_bind_run, he, hvalid, hne, Act.when_false, Act.pure_run]
        exact .stale (by rw [hvalid, hne])

end Santiago.Connection
