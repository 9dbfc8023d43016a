import Santiago.Connection.Steps

/-!
# Santiago.Strand

A connection as its strand runs it.  `handleRead` is a loop over the packets
in the buffer, and users may post a commit between two of them, so one step
here is one pass of that loop: `reading` says that the strand is inside it.
The other steps are the queued tasks, one at a time and in the order in which
they were posted, and what users do from other threads.

`handleRead_exec` shows that the passes put together are the `handleRead` of
the source; `ends` says once what each step can do.
-/

namespace Santiago

open Effect Bytes PacketSocket Connection

/-! ## One pass of the read loop -/

namespace Connection

/-- The connection after `_inputBuffer.consume(n)`. -/
def consumed (c : Connection) (n : Nat) : Connection :=
  { c with socket := { c.socket with inputBuffer := c.socket.inputBuffer.drop n } }

/-- The connection after `_inputBuffer.commit` of what a read brought. -/
def received (c : Connection) (bytes : Bytes) : Connection :=
  { c with socket := { c.socket with
      inputBuffer := c.socket.inputBuffer ++ bytes, pendingReads := c.socket.pendingReads - 1 } }

/-- Bytes that leave the buffer leave the requests alone. -/
@[simp] theorem data_consumed (c : Connection) (n : Nat) : (c.consumed n).data = c.data := rfl

/-- And the state of the connection. -/
@[simp] theorem state_consumed (c : Connection) (n : Nat) : (c.consumed n).state = c.state := rfl

@[simp] theorem socketState_consumed (c : Connection) (n : Nat) :
    (c.consumed n).socket.state = c.socket.state := rfl

/-- The buffer loses as many bytes at its front. -/
@[simp] theorem inputBuffer_consumed (c : Connection) (n : Nat) :
    (c.consumed n).socket.inputBuffer = c.socket.inputBuffer.drop n := rfl

/-- The queued tasks stay. -/
@[simp] theorem strand_consumed (c : Connection) (n : Nat) :
    (c.consumed n).socket.strand = c.socket.strand := rfl

/-- Bytes that arrive leave the requests alone. -/
@[simp] theorem data_received (c : Connection) (bs : Bytes) : (c.received bs).data = c.data := rfl

/-- And the state of the connection. -/
@[simp] theorem state_received (c : Connection) (bs : Bytes) : (c.received bs).state = c.state :=
  rfl

@[simp] theorem socketState_received (c : Connection) (bs : Bytes) :
    (c.received bs).socket.state = c.socket.state := rfl

/-- The queued tasks stay. -/
@[simp] theorem strand_received (c : Connection) (bs : Bytes) :
    (c.received bs).socket.strand = c.socket.strand := rfl

/-- A whole version-1 record is at the head of the buffer. -/
structure NextRecord (buffer : Bytes) (h : FcgiHeader) (content : Bytes) : Prop where
  header_le : fcgiHeaderLen ≤ buffer.length
  cast_eq : FcgiHeader.cast buffer = h
  version_eq : h.version = fcgiVersion1
  record_le : h.recordLength ≤ buffer.length
  content_eq : (buffer.drop fcgiHeaderLen).take h.contentLength = content

/-- Everything one pass of the read loop can do. -/
inductive PassEffect (c : Connection) : Outcome Event Connection Bool → Prop
  | drained : c.socket.inputBuffer.length < fcgiHeaderLen → PassEffect c ⟨.ret false, c, []⟩
  | unsupported {h : FcgiHeader} : fcgiHeaderLen ≤ c.socket.inputBuffer.length →
      FcgiHeader.cast c.socket.inputBuffer = h → h.version ≠ fcgiVersion1 →
      PassEffect c ⟨.ret true, c.consumed h.recordLength, []⟩
  | incomplete {h : FcgiHeader} : fcgiHeaderLen ≤ c.socket.inputBuffer.length →
      FcgiHeader.cast c.socket.inputBuffer = h → h.version = fcgiVersion1 →
      c.socket.inputBuffer.length < h.recordLength → PassEffect c ⟨.ret false, c, []⟩
  | handled {h : FcgiHeader} {content : Bytes} {c' : Connection} {es : List Event} :
      NextRecord c.socket.inputBuffer h content →
      PacketEffect c h.requestId h.type content ⟨.ret (), c', es⟩ →
      PassEffect c ⟨.ret (c'.socket.state ≠ .closed), c'.consumed h.recordLength,
        .newPacket h.requestId h.type content :: es⟩
  | caught {h : FcgiHeader} {content : Bytes} {what : String} {c' : Connection}
      {es : List Event} : NextRecord c.socket.inputBuffer h content →
      PacketEffect c h.requestId h.type content ⟨.throw what, c', es⟩ →
      PassEffect c ⟨.ret true, c'.consumed h.recordLength,
        .newPacket h.requestId h.type content :: es⟩
  | died {h : FcgiHeader} {content : Bytes} {what : String} {c' : Connection}
      {es : List Event} : NextRecord c.socket.inputBuffer h content →
      PacketEffect c h.requestId h.type content ⟨.abort what, c', es⟩ →
      PassEffect c ⟨.abort what, c', .newPacket h.requestId h.type content :: es⟩

/-- Only a CLOSED connection fails an assertion over a packet, and it stays
CLOSED. -/
theorem PacketEffect.closed_of_abort {c c' : Connection} {r : Nat} {t : UInt8} {content : Bytes}
    {what : String} {es : List Event} (h : PacketEffect c r t content ⟨.abort what, c', es⟩) :
    c.state = .closed ∧ c'.state = .closed := by
  cases h with
  | died hc hc' => exact ⟨hc, hc'⟩

/-- A pass of the read loop takes nothing off the buffer, skips a header, or
dispatches one record and looks at the state behind it. -/
theorem nextPacket_effect {c : Connection} (hwf : c.WF) : PassEffect c (owner.nextPacket c) := by
  have hconsume : ∀ (c : Connection) (n : Nat),
      owner.consume n c = ⟨.ret (), c.consumed n, []⟩ :=
    fun _ _ => rfl
  have hsocket : owner.socket c = c.socket := rfl
  simp only [Owner.nextPacket, Act.get_bind_run, hsocket]
  by_cases hlen : c.socket.inputBuffer.length < fcgiHeaderLen
  · rw [if_pos hlen]
    exact .drained hlen
  rw [if_neg hlen]
  rw [Nat.not_lt] at hlen
  by_cases hv : (FcgiHeader.cast c.socket.inputBuffer).version = fcgiVersion1
  · simp only [hv, ne_eq, not_true_eq_false, if_false]
    by_cases hrec :
        c.socket.inputBuffer.length < (FcgiHeader.cast c.socket.inputBuffer).recordLength
    · simp only [hrec, if_true]
      rw [Act.tryCatch_of_ret (Act.pure_run _ _)]
      exact .incomplete hlen rfl hv hrec
    simp only [hrec, if_false]
    have hnext : NextRecord c.socket.inputBuffer (FcgiHeader.cast c.socket.inputBuffer)
        ((c.socket.inputBuffer.drop fcgiHeaderLen).take
          (FcgiHeader.cast c.socket.inputBuffer).contentLength) :=
      ⟨hlen, rfl, hv, Nat.le_of_not_lt hrec, rfl⟩
    generalize FcgiHeader.cast c.socket.inputBuffer = h at hnext ⊢
    generalize (c.socket.inputBuffer.drop fcgiHeaderLen).take h.contentLength = content at hnext ⊢
    have heffect := dispatch_effect hwf h.requestId h.type content
    have hpacket : owner.newPacketCallback false h.requestId h.type content c =
        (recordSocket.dispatch h.requestId h.type content c).after
          [.newPacket h.requestId h.type content] := rfl
    rcases hdispatch : recordSocket.dispatch h.requestId h.type content c with ⟨exit, c', es⟩
    rw [hdispatch] at heffect hpacket
    cases exit with
    | ret u =>
        rw [@Act.tryCatch_of_ret _ _ _ _ _ _ (c'.consumed h.recordLength)
          (decide (c'.socket.state ≠ .closed)) (.newPacket h.requestId h.type content :: es) ?_]
        · exact .handled hnext heffect
        · rw [Act.bind_of_ret hpacket, Act.bind_of_ret (hconsume _ _)]
          simp only [Act.get_bind_run, Act.pure_run, Outcome.after_mk, List.append_nil,
            List.singleton_append]
          rfl
    | throw w =>
        rw [Act.tryCatch_of_throw (Act.bind_of_throw hpacket), Act.bind_of_ret (hconsume _ _)]
        simp only [Act.pure_run, Outcome.after_mk, List.append_nil, List.singleton_append]
        exact .caught hnext heffect
    | abort w =>
        rw [Act.tryCatch_of_abort (Act.bind_of_abort hpacket)]
        exact .died hnext heffect
  · simp only [hv, ne_eq, not_false_eq_true, if_true]
    rw [Act.tryCatch_of_throw (Act.throw_run _ _), Act.bind_of_ret (hconsume _ _)]
    exact .unsupported hlen rfl hv

/-! ### What a packet leaves alone -/

/-- A packet is handled without a look at the buffer. -/
theorem PacketEffect.inputBuffer_eq {c : Connection} {r : Nat} {t : UInt8} {content : Bytes}
    {o : Outcome Event Connection Unit} (h : PacketEffect c r t content o)
    (hlive : ∀ w, o.exit ≠ .abort w) : o.state.socket.inputBuffer = c.socket.inputBuffer := by
  cases h with
  | died hc => exact absurd rfl (hlive _)
  | _ => simp

/-- Records that go out are no packets that come in. -/
theorem newPacket_notMem_wrote {r : Nat} {t : UInt8} {content : Bytes}
    {ps : List (FcgiHeader × Bytes)} : Event.newPacket r t content ∉ ps.map wroteEvent := by
  intro hmem
  obtain ⟨p, _, hw⟩ := List.mem_map.mp hmem
  cases hw

/-- Handling a packet does not enter the packet callback again. -/
theorem PacketEffect.newPacket_notMem {c c' : Connection} {r r' : Nat} {t t' : UInt8}
    {content content' : Bytes} {x : Exit Unit} {es : List Event}
    (h : PacketEffect c r t content ⟨x, c', es⟩) (hlive : ∀ w, x ≠ .abort w) :
    .newPacket r' t' content' ∉ es := by
  cases h with
  | answered => exact newPacket_notMem_wrote
  | answerFailed =>
      rw [failedWrite, List.mem_append, not_or]
      exact ⟨newPacket_notMem_wrote, by simp⟩
  | died => exact absurd rfl (hlive _)
  | _ => simp [wroteEvent]

/-- A reply does not enter the packet callback. -/
theorem CommitEffect.newPacket_notMem {c c' : Connection} {r r' ptr : Nat} {t' : UInt8}
    {content' : Bytes} {es : List Event} (h : CommitEffect c r ptr ⟨.ret (), c', es⟩) :
    .newPacket r' t' content' ∉ es := by
  cases h with
  | stale => simp
  | replyFailed =>
      rw [List.cons_append, List.mem_cons, List.mem_append, not_or, not_or]
      exact ⟨nofun, newPacket_notMem_wrote, by simp⟩
  | _ => simp [wroteEvent]

/-- Handling a packet starts no read. -/
theorem PacketEffect.pendingReads_eq {c : Connection} {r : Nat} {t : UInt8} {content : Bytes}
    {o : Outcome Event Connection Unit} (h : PacketEffect c r t content o)
    (hlive : ∀ w, o.exit ≠ .abort w) : o.state.socket.pendingReads = c.socket.pendingReads := by
  cases h with
  | died hc => exact absurd rfl (hlive _)
  | _ => simp

/-- A pass of the loop starts no read. -/
theorem PassEffect.pendingReads_eq {c : Connection} {again : Bool} {c' : Connection}
    {es : List Event} (h : PassEffect c ⟨.ret again, c', es⟩) :
    c'.socket.pendingReads = c.socket.pendingReads := by
  cases h with
  | drained => rfl
  | unsupported => rfl
  | incomplete => rfl
  | handled _ h =>
      have heq := h.pendingReads_eq (by simp)
      exact heq
  | caught _ h =>
      have heq := h.pendingReads_eq (by simp)
      exact heq

/-- A reply starts no read. -/
theorem CommitEffect.pendingReads_eq {c c' : Connection} {r ptr : Nat} {es : List Event}
    (h : CommitEffect c r ptr ⟨.ret (), c', es⟩) :
    c'.socket.pendingReads = c.socket.pendingReads := by
  cases h with
  | stale => rfl
  | replied => rfl
  | repliedLast => simp
  | replyFailed => simp

/-- A handled packet leaves the connection well formed. -/
theorem PacketEffect.wf {c : Connection} {r : Nat} {t : UInt8} {content : Bytes}
    {o : Outcome Event Connection Unit} (h : PacketEffect c r t content o)
    (hlive : ∀ w, o.exit ≠ .abort w) (hwf : c.WF) : o.state.WF := by
  cases h with
  | died hc => exact absurd rfl (hlive _)
  | beganLast _ _ _ hc =>
      have hs : c.socket.state ≠ .closed := fun hs => hc (hwf.mpr hs)
      simp [WF, hs]
  | answerFailed => exact wf_shut _
  | abortedLast => exact wf_shut _
  | abortFailed => exact wf_shut _
  | _ => exact hwf

/-- So does a pass of the loop. -/
theorem PassEffect.wf {c : Connection} {again : Bool} {c' : Connection} {es : List Event}
    (h : PassEffect c ⟨.ret again, c', es⟩) (hwf : c.WF) : c'.WF := by
  cases h with
  | drained => exact hwf
  | unsupported => exact hwf
  | incomplete => exact hwf
  | handled hn h => exact h.wf (by simp) hwf
  | caught hn h => exact h.wf (by simp) hwf

/-- And a reply. -/
theorem CommitEffect.wf {c c' : Connection} {r ptr : Nat} {es : List Event}
    (h : CommitEffect c r ptr ⟨.ret (), c', es⟩) (hwf : c.WF) : c'.WF := by
  cases h with
  | stale => exact hwf
  | replied => exact hwf
  | repliedLast => exact wf_shut _
  | replyFailed => exact wf_shut _

/-- A pass that goes on has taken something off the buffer. -/
theorem PassEffect.length_lt {c c' : Connection} {es : List Event}
    (h : PassEffect c ⟨.ret true, c', es⟩) :
    c'.socket.inputBuffer.length < c.socket.inputBuffer.length := by
  generalize hret : Exit.ret true = x at h
  cases h with
  | drained => cases hret
  | unsupported hlen => exact FcgiHeader.length_drop_lt _ hlen
  | incomplete => cases hret
  | @handled h _ c' _ hn h =>
      rw [inputBuffer_consumed, h.inputBuffer_eq (by simp)]
      exact FcgiHeader.length_drop_lt _ hn.header_le
  | caught hn h =>
      rw [inputBuffer_consumed, h.inputBuffer_eq (by simp)]
      exact FcgiHeader.length_drop_lt _ hn.header_le
  | died => cases hret

end Connection

/-! ## The strand of a connection -/

/-- A connection and whether its strand is in the loop of `handleRead`. -/
structure Strand where
  connection : Connection
  reading : Bool

namespace Strand

/-- The atomic steps of a connection. -/
inductive Step where
  /-- asio calls `handleRead`, which runs up to its loop. -/
  | handleRead (error : Bool) (bytes : Bytes)
  /-- One pass of the loop. -/
  | nextPacket
  /-- The next task of the strand. -/
  | runTask
  /-- `commitReply`, called by a user's request from any thread. -/
  | commitReply (requestId ptr : Nat)
  /-- A user writes to the data of his request. -/
  | edit (requestId ptr : Nat) (change : UserEdit)

/-- The strand with another connection on it. -/
def setConnection (c : Connection) (s : Strand) : Strand := { s with connection := c }

/-- A new connection after `start()`. -/
def init (writeFaults : List (Option Nat)) (uninitialized : Nat → BitVec 32) : Strand where
  connection := (Connection.start (Connection.init writeFaults uninitialized)).state
  reading := false

/-- The connection with the queue of its strand replaced. -/
def withStrand (c : Connection) (tasks : List StrandTask) : Connection :=
  { c with socket := { c.socket with strand := tasks } }

/-- The task in front of the queue. -/
def runTask : Act Event Strand Unit := do
  let s ← Act.get
  match s.connection.socket.strand with
  | [] => pure ()
  | task :: rest => do
      Act.modify fun s => { s with connection := withStrand s.connection rest }
      Act.zoom connection setConnection (Connection.runTask task)

/-- What a step does. -/
def act : Step → Act Event Strand Unit
  | .handleRead error bytes => do
      let enter ← Act.zoom connection setConnection (owner.enterHandleRead error bytes)
      Act.modify fun s => { s with reading := enter }
  | .nextPacket => do
      let again ← Act.zoom connection setConnection owner.nextPacket
      Act.modify fun s => { s with reading := again }
  | .runTask => runTask
  | .commitReply requestId ptr =>
      Act.zoom connection setConnection (Connection.commitReply requestId ptr)
  | .edit requestId ptr change =>
      Act.zoom connection setConnection (Connection.edit requestId ptr change)

/-- The strand runs one thing at a time; users call whenever they like. -/
def enabled (s : Strand) : Step → Bool
  | .handleRead _ _ => !s.reading
  | .nextPacket => s.reading
  | .runTask => !s.reading && !s.connection.socket.strand.isEmpty
  | .commitReply _ _ => true
  | .edit _ _ _ => true

/-- The connection and its strand as a machine: one step is one handler, or one
pass of the read loop. -/
def machine : Machine Event Strand Step where
  enabled := enabled
  act := act

/-! ## What a step can do -/

/-- Everything a step can do that does not end the process: the state it
leaves and the events. -/
inductive Moves (s : Strand) : Step → Strand → List Event → Prop
  | readClosed {error : Bool} {bytes : Bytes} : s.connection.state = .closed →
      Moves s (.handleRead error bytes) ⟨s.connection.received bytes, false⟩ []
  | readFailed {bytes : Bytes} : s.connection.state ≠ .closed →
      Moves s (.handleRead true bytes) ⟨(s.connection.received bytes).shut, false⟩
        [.readError, .cleared s.connection.data.size, .closeCallback]
  | readBytes {bytes : Bytes} : s.connection.state ≠ .closed →
      Moves s (.handleRead false bytes) ⟨s.connection.received bytes, true⟩ []
  | pass {again : Bool} {c' : Connection} {es : List Event} :
      PassEffect s.connection ⟨.ret again, c', es⟩ → Moves s .nextPacket ⟨c', again⟩ es
  | flush {rest : List StrandTask} :
      s.connection.socket.strand = .flushProtocolSocket :: rest → s.connection.state = .closed →
      Moves s .runTask ⟨(withStrand s.connection rest).consumed
        (withStrand s.connection rest).socket.inputBuffer.length, s.reading⟩ []
  | commit {r ptr : Nat} {rest : List StrandTask} {c' : Connection} {es : List Event} :
      s.connection.socket.strand = .commitReplyImpl r ptr :: rest →
      CommitEffect (withStrand s.connection rest) r ptr ⟨.ret (), c', es⟩ →
      Moves s .runTask ⟨c', s.reading⟩ es
  | commitReply {r ptr : Nat} : Moves s (.commitReply r ptr) ⟨withStrand s.connection
      (s.connection.socket.strand ++ [.commitReplyImpl r ptr]), s.reading⟩ []
  | edit {r ptr : Nat} {change : UserEdit} : Moves s (.edit r ptr change)
      ⟨{ s.connection with data := s.connection.data.edit r ptr change }, s.reading⟩ []

/-- `handleRead` up to its loop, on a CLOSED connection, with an error, and with
bytes. -/
theorem enterHandleRead_run (c : Connection) (hwf : c.WF) (error : Bool) (bytes : Bytes) :
    owner.enterHandleRead error bytes c =
      if c.state = .closed then ⟨.ret false, c.received bytes, []⟩
      else if error then ⟨.ret false, (c.received bytes).shut,
        [.readError, .cleared c.data.size, .closeCallback]⟩
      else ⟨.ret true, c.received bytes, []⟩ := by
  have hcommit : owner.onSocket (Act.modify fun s => { s with
      inputBuffer := s.inputBuffer ++ bytes, pendingReads := s.pendingReads - 1 }) c =
        ⟨.ret (), c.received bytes, []⟩ := rfl
  have hsocket : (owner.socket (c.received bytes)).state = c.socket.state := rfl
  rw [Owner.enterHandleRead, Act.bind_of_ret hcommit]
  simp only [Act.get_bind_run, hsocket, Outcome.after_nil]
  by_cases hc : c.state = .closed
  · rw [if_pos (hwf.mp hc), if_pos hc]
    rfl
  have hs : c.socket.state ≠ .closed := fun hs => hc (hwf.mpr hs)
  rw [if_neg hs, if_neg hc]
  cases error with
  | false => rfl
  | true =>
      have hclose : owner.onSocket close (c.received bytes) =
          ⟨.ret (), { c.received bytes with socket := (c.received bytes).socket.shut },
            []⟩ := by
        simp only [Owner.onSocket, Act.zoom_run, close_run]
        rfl
      have hpacket : owner.newPacketCallback true 0 0 []
          { c.received bytes with socket := (c.received bytes).socket.shut } =
            ⟨.ret (), (c.received bytes).shut, [.cleared c.data.size, .closeCallback]⟩ := by
        have hagain : recordSocket.onSocket close
            { c.received bytes with socket := (c.received bytes).socket.shut } =
              ⟨.ret (), { c.received bytes with socket := (c.received bytes).socket.shut },
                []⟩ := by
          simp only [RecordSocket.onSocket, Act.zoom_run, recordSocket, close_run]
          simp [setSocket]
        have hevent := socketClosed_run (c := { c.received bytes with
          socket := (c.received bytes).socket.shut }) hc
        simp only [owner, RecordSocket.handleNewPacket, if_true]
        rw [Act.bind_of_ret hagain, transceiverEventCallback_recordSocket, hevent]
        simp [Connection.shut]
      simp only [if_true, Act.emit_bind_run]
      rw [Act.bind_of_ret hclose, Act.bind_of_ret hpacket]
      rfl

/-- The task in front is taken off the queue and run. -/
theorem runTask_run {s : Strand} {task : StrandTask} {rest : List StrandTask}
    (h : s.connection.socket.strand = task :: rest) :
    runTask s = Act.zoom connection setConnection (Connection.runTask task)
      { s with connection := withStrand s.connection rest } := by
  simp only [runTask, Act.get_bind_run, h, Act.modify_bind_run]

/-- The flush empties the buffer of a socket that is CLOSED, and fails its
assertion on one that is not. -/
theorem flushTask_run (c : Connection) :
    Connection.runTask .flushProtocolSocket c =
      if c.socket.state = .closed then ⟨.ret (), c.consumed c.socket.inputBuffer.length, []⟩
      else ⟨.abort "PacketSocket::flushProtocolSocket: _state == CLOSED", c, []⟩ := by
  simp only [Connection.runTask, Act.zoom_run, flushProtocolSocket, Act.get_bind_run]
  by_cases h : c.socket.state = .closed
  · simp [h, setSocket, consumed]
  · simp [h, setSocket]

/-- A pass that returns says whether the loop goes on. -/
theorem act_nextPacket {c c' : Connection} {again : Bool} (reading : Bool) {es : List Event}
    (h : owner.nextPacket c = ⟨.ret again, c', es⟩) :
    machine.act .nextPacket ⟨c, reading⟩ = ⟨.ret (), ⟨c', again⟩, es⟩ := by
  have hzoom : Act.zoom connection setConnection owner.nextPacket ⟨c, reading⟩ =
      ⟨.ret again, ⟨c', reading⟩, es⟩ := by
    rw [Act.zoom_run, h]
    rfl
  have hact := Act.bind_of_ret
    (f := fun again => (Act.modify fun s => { s with reading := again } : Act Event Strand Unit))
    hzoom
  simp only [Act.modify_run, Outcome.after_mk, List.append_nil] at hact
  exact hact

/-- A pass that fails an assertion ends the process in the loop. -/
theorem act_nextPacket_abort {c c' : Connection} (reading : Bool) {w : String} {es : List Event}
    (h : owner.nextPacket c = ⟨.abort w, c', es⟩) :
    machine.act .nextPacket ⟨c, reading⟩ = ⟨.abort w, ⟨c', reading⟩, es⟩ := by
  have hzoom : Act.zoom connection setConnection owner.nextPacket ⟨c, reading⟩ =
      ⟨.abort w, ⟨c', reading⟩, es⟩ := by
    rw [Act.zoom_run, h]
    rfl
  exact Act.bind_of_abort hzoom

/-- A read that returns says whether its loop begins. -/
theorem act_handleRead {c c' : Connection} {error enter : Bool} (reading : Bool) {bytes : Bytes}
    {es : List Event} (h : owner.enterHandleRead error bytes c = ⟨.ret enter, c', es⟩) :
    machine.act (.handleRead error bytes) ⟨c, reading⟩ =
      ⟨.ret (), ⟨c', enter⟩, es⟩ := by
  have hzoom : Act.zoom connection setConnection (owner.enterHandleRead error bytes)
      ⟨c, reading⟩ = ⟨.ret enter, ⟨c', reading⟩, es⟩ := by
    rw [Act.zoom_run, h]
    rfl
  have hact := Act.bind_of_ret
    (f := fun enter => (Act.modify fun s => { s with reading := enter } : Act Event Strand Unit))
    hzoom
  simp only [Act.modify_run, Outcome.after_mk, List.append_nil] at hact
  exact hact

/-- Everything a step that ends the process can do: the assertion that fails
and the events before it. -/
inductive Dies (s : Strand) : Step → String → List Event → Prop
  | pass {w : String} {c' : Connection} {es : List Event} :
      PassEffect s.connection ⟨.abort w, c', es⟩ → Dies s .nextPacket w es
  | flush {rest : List StrandTask} :
      s.connection.socket.strand = .flushProtocolSocket :: rest →
        s.connection.state ≠ .closed →
      Dies s .runTask "PacketSocket::flushProtocolSocket: _state == CLOSED" []
  | commit {r ptr : Nat} {rest : List StrandTask} {w : String} {c' : Connection}
      {es : List Event} : s.connection.socket.strand = .commitReplyImpl r ptr :: rest →
      CommitEffect (withStrand s.connection rest) r ptr ⟨.abort w, c', es⟩ →
      Dies s .runTask w es

/-- The assertions on the strand of a connection. -/
theorem Dies.mem {s : Strand} {l : Step} {w : String} {es : List Event} (h : Dies s l w es) :
    w ∈ closedAssertions ++ ["PacketSocket::flushProtocolSocket: _state == CLOSED",
      "ConnectionData::cleanupRequest: IN_COMPLETED"] := by
  cases h with
  | pass h =>
      cases h with
      | died _ h =>
          cases h with
          | died _ _ _ hw => exact List.mem_append_left _ hw
  | flush => simp
  | commit _ h =>
      cases h with
      | incomplete => simp
      | died _ _ _ hw => exact List.mem_append_left _ hw

/-- How a step ends. -/
inductive Ends (s : Strand) (l : Step) : Outcome Event Strand Unit → Prop
  | ret {s' : Strand} {es : List Event} : Moves s l s' es → Ends s l ⟨.ret (), s', es⟩
  | abort {w : String} {s' : Strand} {es : List Event} : Dies s l w es →
      Ends s l ⟨.abort w, s', es⟩

/-- **Every step** returns and does one of the things `Moves` lists, or ends
the process in one of the ways `Dies` lists. -/
theorem ends {s : Strand} (hwf : s.connection.WF) {l : Step} (he : machine.enabled s l = true) :
    Ends s l (machine.act l s) := by
  cases l with
  | handleRead error bytes =>
      have hrun := enterHandleRead_run s.connection hwf error bytes
      by_cases hc : s.connection.state = .closed
      · rw [if_pos hc] at hrun
        rw [act_handleRead s.reading hrun]
        exact .ret (.readClosed hc)
      rw [if_neg hc] at hrun
      cases error with
      | false =>
          rw [act_handleRead s.reading hrun]
          exact .ret (.readBytes hc)
      | true =>
          rw [act_handleRead s.reading hrun]
          exact .ret (.readFailed hc)
  | nextPacket =>
      have heffect := nextPacket_effect hwf
      rcases hrun : owner.nextPacket s.connection with ⟨exit, c', es⟩
      rw [hrun] at heffect
      cases exit with
      | ret again =>
          rw [act_nextPacket s.reading hrun]
          exact .ret (.pass heffect)
      | throw w => cases heffect
      | abort w =>
          rw [act_nextPacket_abort s.reading hrun]
          exact .abort (.pass heffect)
  | runTask =>
      have hact : machine.act .runTask s = runTask s := rfl
      rw [hact]
      cases htasks : s.connection.socket.strand with
      | nil =>
          simp only [machine, enabled, htasks, List.isEmpty_nil, Bool.not_true,
            Bool.and_false] at he
          contradiction
      | cons task rest =>
          rw [runTask_run htasks]
          cases task with
          | flushProtocolSocket =>
              have hrun := flushTask_run (withStrand s.connection rest)
              have hstate : (withStrand s.connection rest).socket.state =
                s.connection.socket.state := rfl
              rw [Act.zoom_run]
              by_cases hc : s.connection.state = .closed
              · rw [hstate, if_pos (hwf.mp hc)] at hrun
                simp only [hrun]
                exact .ret (.flush htasks hc)
              · have hs : s.connection.socket.state ≠ .closed := fun hs => hc (hwf.mpr hs)
                rw [hstate, if_neg hs] at hrun
                simp only [hrun]
                exact .abort (.flush htasks hc)
          | commitReplyImpl r ptr =>
              have heffect := commitReplyImpl_effect (c := withStrand s.connection rest) hwf r ptr
              rw [Act.zoom_run, Connection.runTask]
              rcases hrun : commitReplyImpl r ptr (withStrand s.connection rest) with
                ⟨exit, c', es⟩
              simp only [hrun] at heffect ⊢
              cases exit with
              | ret u => exact .ret (.commit htasks heffect)
              | throw w => cases heffect
              | abort w => exact .abort (.commit htasks heffect)
  | commitReply r ptr => exact .ret .commitReply
  | edit r ptr change => exact .ret .edit

/-- Every step after which the process goes on is one of the moves. -/
theorem moves {s : Strand} (hwf : s.connection.WF) {l : Step} (he : machine.enabled s l = true)
    (hv : machine.survives s l = true) :
    Moves s l (machine.act l s).state (machine.act l s).events := by
  have hends := ends hwf he
  rw [Machine.survives] at hv
  generalize machine.act l s = o at hends hv ⊢
  cases hends with
  | ret hm => exact hm
  | abort => contradiction

/-- A packet that is handled was the next record of the buffer. -/
theorem Moves.nextRecord {s s' : Strand} {l : Step} {es : List Event} (h : Moves s l s' es)
    {r : Nat} {t : UInt8} {content : Bytes} (hp : .newPacket r t content ∈ es) :
    l = .nextPacket ∧ ∃ header, NextRecord s.connection.socket.inputBuffer header content ∧
      header.requestId = r ∧ header.type = t := by
  cases h with
  | readClosed => cases hp
  | readFailed => simp at hp
  | readBytes => cases hp
  | pass h =>
      refine ⟨rfl, ?_⟩
      cases h with
      | drained => cases hp
      | unsupported => cases hp
      | incomplete => cases hp
      | handled hn h =>
          obtain heq | hmem := List.mem_cons.mp hp
          · cases heq
            exact ⟨_, hn, rfl, rfl⟩
          · exact absurd hmem (h.newPacket_notMem (by simp))
      | caught hn h =>
          obtain heq | hmem := List.mem_cons.mp hp
          · cases heq
            exact ⟨_, hn, rfl, rfl⟩
          · exact absurd hmem (h.newPacket_notMem (by simp))
  | flush => cases hp
  | commit _ h => exact absurd hp h.newPacket_notMem
  | commitReply => cases hp
  | edit => cases hp

/-! ## Well-formedness over runs -/

/-- A new connection is well formed. -/
theorem wf_init (fs : List (Option Nat)) (u : Nat → BitVec 32) : (init fs u).connection.WF := by
  simp [WF, init, Connection.start, Connection.init, PacketSocket.init, setSocket,
    startAsyncPacketRead]

/-- Each step keeps a connection well formed. -/
theorem Moves.wf {s s' : Strand} {l : Step} {es : List Event} (h : Moves s l s' es)
    (hwf : s.connection.WF) : s'.connection.WF := by
  cases h with
  | readClosed hc => exact hwf
  | readFailed hc => exact wf_shut _
  | readBytes hc => exact hwf
  | pass h => exact h.wf hwf
  | flush ht hc => exact hwf
  | commit ht h => exact h.wf hwf
  | commitReply => exact hwf
  | edit => exact hwf

/-- And so does each run. -/
theorem wf_of_run_from {s₀ : Strand} {tr : List (Fired Strand Step)} {s : Strand}
    (hwf : s₀.connection.WF) (h : machine.Run s₀ tr s) : s.connection.WF :=
  h.inv (fun _ _ => True) (fun s => s.connection.WF) hwf
    (fun _ _ hwf he hv _ => (moves hwf he hv).wf hwf) (fun _ _ => trivial)

/-- In every run the connection is well formed. -/
theorem wf_of_run {fs : List (Option Nat)} {u : Nat → BitVec 32} {tr : List (Fired Strand Step)}
    {s : Strand} (h : machine.Run (init fs u) tr s) : s.connection.WF :=
  wf_of_run_from (wf_init fs u) h

/-- The induction rule for a connection: what every step keeps that meets `C`
holds after every run whose steps all meet it. -/
theorem inv {fs : List (Option Nat)} {u : Nat → BitVec 32} {tr : List (Fired Strand Step)}
    {s : Strand} (C : Strand → Step → Prop) (J : List Event → Strand → Prop)
    (h0 : J [] (init fs u))
    (hs : ∀ (t : List Event) (s : Strand) (l : Step), s.connection.WF → J t s →
      machine.enabled s l = true → C s l →
        Moves s l (machine.act l s).state (machine.act l s).events →
          J (t ++ (machine.act l s).events) (machine.act l s).state)
    (h : machine.Run (init fs u) tr s) (hc : ∀ f ∈ tr, C f.pre f.label) :
    J (machine.trace tr) s := by
  have hboth := h.inv_trace C (fun t s => s.connection.WF ∧ J t s) ⟨wf_init fs u, h0⟩
    (fun t s l hj he hv hc =>
      have hm := moves hj.1 he hv
      ⟨hm.wf hj.1, hs t s l hj.1 hj.2 he hc hm⟩) hc
  exact hboth.2

/-! ## Passes put together -/

/-- The passes of a loop that returns, as steps behind a run that is in it. -/
theorem readLoop_run {s₀ : Strand} {fuel : Nat} {c : Connection} {tr : List (Fired Strand Step)}
    (hwf : c.WF) (hr : machine.Run s₀ tr ⟨c, true⟩)
    (hfuel : c.socket.inputBuffer.length < fuel) (hret : (owner.readLoop fuel c).exit = .ret ()) :
    ∃ tr', machine.Run s₀ (tr ++ tr') ⟨(owner.readLoop fuel c).state, false⟩ ∧
      machine.trace tr' = (owner.readLoop fuel c).events ∧
      ∀ f ∈ tr', f.label = .nextPacket := by
  induction fuel generalizing c tr with
  | zero => exact absurd hfuel (Nat.not_lt_zero _)
  | succ fuel ih =>
      have heffect := nextPacket_effect hwf
      rw [Owner.readLoop] at hret ⊢
      rcases hn : owner.nextPacket c with ⟨exit, c', es⟩
      rw [hn] at heffect
      cases exit with
      | throw w => cases heffect
      | abort w =>
          rw [Act.bind_of_abort hn] at hret
          cases hret
      | ret again =>
          have hact := act_nextPacket true hn
          have hsurvives : machine.survives ⟨c, true⟩ .nextPacket = true := by
            rw [Machine.survives, hact]
          have hstep := Machine.Run.step hr (l := .nextPacket) rfl hsurvives
          have htrace : machine.trace [⟨⟨c, true⟩, .nextPacket⟩] = es := by
            rw [Machine.trace_singleton, Machine.observed, hact]
          rw [hact] at hstep
          rw [Act.bind_of_ret hn] at hret ⊢
          cases again with
          | false => exact ⟨[⟨⟨c, true⟩, .nextPacket⟩],
              hstep, by simpa using htrace, by simp⟩
          | true =>
              simp only [Act.when_true, Outcome.exit_after] at hret
              have hlt := heffect.length_lt
              obtain ⟨tr', hrun, htr', hl⟩ := ih (heffect.wf hwf) hstep (by omega) hret
              refine ⟨⟨⟨c, true⟩, .nextPacket⟩ :: tr', by simpa using hrun, ?_, ?_⟩
              · rw [← List.singleton_append, Machine.trace_append, htrace, htr']
                rfl
              · intro f hf
                cases hf with
                | head => rfl
                | tail _ hf => exact hl f hf

/-- **The loop is its passes**: a call of `handleRead` that returns is one
`handleRead` step followed by `nextPacket` steps. -/
theorem handleRead_run {c : Connection} (hwf : c.WF) (error : Bool) (bytes : Bytes)
    (h : (Connection.handleRead error bytes c).exit = .ret ()) :
    ∃ tr, machine.Run ⟨c, false⟩ (⟨⟨c, false⟩, .handleRead error bytes⟩ :: tr)
        ⟨(Connection.handleRead error bytes c).state, false⟩ ∧
      machine.trace (⟨⟨c, false⟩, .handleRead error bytes⟩ :: tr) =
        (Connection.handleRead error bytes c).events ∧
      ∀ f ∈ tr, f.label = .nextPacket := by
  have hrun : ∃ enter c' es, owner.enterHandleRead error bytes c = ⟨.ret enter, c', es⟩ := by
    rw [enterHandleRead_run c hwf]
    split
    · exact ⟨_, _, _, rfl⟩
    · split
      · exact ⟨_, _, _, rfl⟩
      · exact ⟨_, _, _, rfl⟩
  obtain ⟨enter, c', es, henter⟩ := hrun
  have hact := act_handleRead false henter
  have hsurvives : machine.survives ⟨c, false⟩ (.handleRead error bytes) = true := by
    rw [Machine.survives, hact]
  have hstep := Machine.Run.step (.nil : machine.Run ⟨c, false⟩ [] ⟨c, false⟩)
    (l := .handleRead error bytes) rfl hsurvives
  have hmove := (moves (s := ⟨c, false⟩) hwf (l := .handleRead error bytes) rfl hsurvives)
  have htrace : machine.trace [⟨⟨c, false⟩, .handleRead error bytes⟩] = es := by
    rw [Machine.trace_singleton, Machine.observed, hact]
  rw [hact] at hstep hmove
  rw [Connection.handleRead, Owner.handleRead, Act.bind_of_ret henter] at h ⊢
  simp only [Act.get_bind_run, Outcome.exit_after, Outcome.state_after, Outcome.events_after]
    at h ⊢
  cases enter with
  | false => exact ⟨[], hstep, by simpa using htrace, by simp⟩
  | true =>
      simp only [Act.when_true] at h ⊢
      obtain ⟨tr, hr, htr, hl⟩ := readLoop_run (hmove.wf hwf) hstep (Nat.lt_succ_self _) h
      refine ⟨tr, hr, ?_, hl⟩
      rw [← List.singleton_append, Machine.trace_append, htrace, htr]
      rfl

end Strand

end Santiago
