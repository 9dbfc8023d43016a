import Santiago.RecordSocket

/-!
# Santiago.Connection

One connection: the class `Connection` with the objects it owns.  The
constructor's bindings are spelled out once, in `recordSocket` and
`runCallback`; the two callbacks to the acceptor are events, and
`Santiago.Server` says what the acceptor does on them.
-/

namespace Santiago

open Effect Bytes PacketSocket

inductive Connection.State where
  | open
  | closing
  | closed
deriving DecidableEq

structure Connection where
  socket : PacketSocket
  data : ConnectionData
  state : Connection.State

namespace Connection

/-- The constructor. -/
def init (writeFaults : List (Option Nat)) (uninitialized : Nat → BitVec 32) : Connection where
  socket := PacketSocket.init writeFaults
  data := ConnectionData.init uninitialized
  state := .open

def setSocket (s : PacketSocket) (c : Connection) : Connection := { c with socket := s }

def setData (d : ConnectionData) (c : Connection) : Connection := { c with data := d }

/-! ## Closing -/

def closeAndCleanup : Act Event Connection Unit := do
  let c ← Act.get
  Act.emit (.cleared c.data.size)
  Act.modify fun c => { c with data := c.data.clear }
  Act.zoom socket setSocket close
  Act.modify fun c => { c with state := .closed }
  Act.emit .closeCallback

def handleTransceiverEvent (eventInfo : TransceiverEventInfo) : Act Event Connection Unit := do
  let c ← Act.get
  Act.assert (c.state ≠ .closed) "Connection::handleTransceiverEvent: _state != CLOSED"
  match eventInfo with
  | .socketClosed => closeAndCleanup
  | .connectionWindDown => do
      Act.modify fun c => { c with state := .closing }
      let c ← Act.get
      Act.when (c.data.size = 0) closeAndCleanup

def handleOnEmpty : Act Event Connection Unit := do
  let c ← Act.get
  Act.when (c.state = .closing) closeAndCleanup

/-! ## The calls into `ConnectionData` and back -/

/-- `handleRequestReady` and `handleOnEmpty`, as bound to `_data`. -/
def runCallback : Option ConnectionData.Callback → Act Event Connection Unit
  | none => pure ()
  | some (.requestReady requestId e) => Act.emit (.requestReady requestId e.ptr e.data)
  | some .empty => handleOnEmpty

/-- Run a function of `_data` and the callback it ends with. -/
def onData (x : Act Event ConnectionData (Option ConnectionData.Callback)) :
    Act Event Connection Unit := do
  let callback ← Act.zoom data setData x
  runCallback callback

/-- The record socket, bound as in the constructor. -/
def recordSocket : RecordSocket Connection where
  socket := socket
  setSocket := setSocket
  beginRequestCallback r := onData (ConnectionData.handleBeginRequest r)
  abortRequestCallback r := onData (ConnectionData.handleAbortRequest r)
  stdinCallback r bs := onData (ConnectionData.handleStdin r bs)
  paramsCallback r bs := onData (ConnectionData.handleParams r bs)
  transceiverEventCallback := handleTransceiverEvent

@[simp] theorem beginRequestCallback_recordSocket (r : Nat) :
    recordSocket.beginRequestCallback r = onData (ConnectionData.handleBeginRequest r) := rfl

@[simp] theorem abortRequestCallback_recordSocket (r : Nat) :
    recordSocket.abortRequestCallback r = onData (ConnectionData.handleAbortRequest r) := rfl

@[simp] theorem stdinCallback_recordSocket (r : Nat) (bs : Bytes) :
    recordSocket.stdinCallback r bs = onData (ConnectionData.handleStdin r bs) := rfl

@[simp] theorem paramsCallback_recordSocket (r : Nat) (bs : Bytes) :
    recordSocket.paramsCallback r bs = onData (ConnectionData.handleParams r bs) := rfl

@[simp] theorem transceiverEventCallback_recordSocket (e : TransceiverEventInfo) :
    recordSocket.transceiverEventCallback e = handleTransceiverEvent e := rfl

/-- The packet socket's owner, as the record socket's constructor binds it. -/
def owner : Owner Connection where
  socket := socket
  setSocket := setSocket
  newPacketCallback := recordSocket.handleNewPacket

def handleRead (error : Bool) (bytes : Bytes) : Act Event Connection Unit :=
  owner.handleRead error bytes

def start : Act Event Connection Unit := Act.zoom socket setSocket startAsyncPacketRead

/-! ## Replies -/

/-- `commitReply`: post the reply to the connection's strand. -/
def commitReply (requestId ptr : Nat) : Act Event Connection Unit :=
  Act.modify fun c => { c with
    socket := { c.socket with strand := c.socket.strand ++ [.commitReplyImpl requestId ptr] } }

/-- `commitReplyImpl`; a valid `ptr` is the object the entry holds. -/
def commitReplyImpl (requestId ptr : Nat) : Act Event Connection Unit := do
  let c ← Act.get
  match c.data.requestMap[requestId]? with
  | none => pure ()
  | some e =>
      Act.when (c.data.isValidRequest requestId ptr) do
        Act.emit (.sendReply requestId ptr)
        let reply ← recordSocket.sendReply requestId e.data.outBuffer e.data.errBuffer
          e.data.appStatus
        Act.modify fun c => { c with data := c.data.modifyEntry requestId fun state data =>
          (state, { data with outBuffer := reply.outBuffer, errBuffer := reply.errBuffer }) }
        if reply.ec then closeAndCleanup
        else onData (ConnectionData.cleanupRequest requestId)

/-- One task of the strand. -/
def runTask : StrandTask → Act Event Connection Unit
  | .flushProtocolSocket => Act.zoom socket setSocket flushProtocolSocket
  | .commitReplyImpl requestId ptr => commitReplyImpl requestId ptr

/-- A user's access to the object `ptr` through its request. -/
def edit (requestId ptr : Nat) (change : UserEdit) : Act Event Connection Unit :=
  Act.modify fun c => { c with data := c.data.edit requestId ptr change }

end Connection

end Santiago
