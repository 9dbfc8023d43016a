import Santiago.RequestLife

/-!
# Santiago.Server

The whole process: the acceptor with the connections it made, the
`Fastcgi::Request` objects handed to users, and the server's map of request
handlers.  A step is one task of one strand, one pass of a read loop, or one
call a user makes from any thread, so a run is an interleaving of all of them.

A weak pointer is the name of the object it points to, and `lock()` asks
whether somebody still holds that object.  A connection that was erased from
`_activeConnections` is destroyed; what is still queued on its strand runs
on the memory it left behind, which the model keeps as it was.

`route()` and the handlers are code of the user.  `route()` is its answer,
and an exception out of `commit()`, `cancel()` or an accessor is his to handle.
-/

namespace Santiago

open Effect Bytes

/-- A task posted to the acceptor's strand. -/
inductive AcceptorTask where
  /-- `Server::handleNewRequest`, bound to a request. -/
  | handleNewRequest (q : Nat)
  | closeConnection (connectionId : Nat)
  /-- The code passes the id only; `q` is the request whose destruction posted the task. -/
  | handleRequestDeleteImpl (requestId : Nat × Nat) (q : Nat)
deriving DecidableEq

/-! ## `Fastcgi::Request` -/

/-- Who holds a `Fastcgi::Request`. -/
inductive Request.Phase where
  /-- The task posted by `Acceptor::handleNewRequest`. -/
  | queued
  /-- A `Server::Request`, in the hands of the user. -/
  | held
  /-- Nobody: the destructor is about to call `isValid()`. -/
  | released
  /-- Nobody: `isValid()` returned true and `cancel()` comes next. -/
  | cancelling
  | destroyed
deriving DecidableEq

structure Request where
  requestId : Nat
  /-- `none` after `reset()`. -/
  dataWeakPtr : Option Nat
  connectionId : Nat
  connectionWeakPtr : Nat
  hasReplied : Bool
  /-- The connection in whose map the data was made. -/
  home : Nat
  phase : Request.Phase

def Request.getId (rq : Request) : Nat × Nat := (rq.connectionId, rq.requestId)

/-- After `_dataWeakPtr.reset()` and `_hasReplied = true`. -/
def Request.replied (rq : Request) : Request := { rq with dataWeakPtr := none, hasReplied := true }

def Request.withPhase (rq : Request) (phase : Request.Phase) : Request := { rq with phase := phase }

/-! ## The process -/

/-- A connection the acceptor made, with the id it bound into the callbacks. -/
structure AcceptedConnection where
  connectionId : Nat
  strand : Strand

inductive Server.Status where
  | started
  | stopped
deriving DecidableEq

structure Server where
  status : Server.Status
  /-- An exception left a thread of the io_service. -/
  terminated : Bool
  /-- Every connection object ever made, by the order of their making. -/
  connections : Nat → Option AcceptedConnection
  nextConnection : Nat
  /-- The address of the next `new RequestData()`. -/
  nextAddress : Nat
  activeConnections : Nat → Option Nat
  /-- A C++ `unsigned int`. -/
  nextConnectionId : Nat
  acceptorStrand : List AcceptorTask
  /-- Every `Fastcgi::Request` ever made, by the order of their making. -/
  requests : Nat → Option Request
  nextRequest : Nat
  /-- A handler is named by the request it was made for. -/
  activeRequestHandlers : Nat × Nat → Option Nat

def Strand.allocateFrom (s : Strand) (address : Nat) : Strand :=
  { s with connection := { s.connection with data := s.connection.data.allocateFrom address } }

namespace Server

/-- The server after its constructor and `start()`. -/
def init : Server where
  status := .started
  terminated := false
  connections _ := none
  nextConnection := 0
  nextAddress := 0
  activeConnections _ := none
  nextConnectionId := 0
  acceptorStrand := []
  requests _ := none
  nextRequest := 0
  activeRequestHandlers _ := none

def setRequest (s : Server) (q : Nat) (rq : Request) : Server :=
  { s with requests := Function.update s.requests q (some rq) }

/-- The strand of `c` moved on, and the heap with it. -/
def setStrand (s : Server) (c connectionId : Nat) (t : Strand) : Server :=
  { s with
    connections := Function.update s.connections c (some ⟨connectionId, t⟩)
    nextAddress := t.connection.data.nextPtr }

def post (s : Server) (task : AcceptorTask) : Server :=
  { s with acceptorStrand := s.acceptorStrand ++ [task] }

/-! ## The acceptor -/

/-- `handleAccept` without an error code. -/
def handleAccept (writeFaults : List (Option Nat)) (uninitialized : Nat → BitVec 32) :
    Act (Nat × Event) Server Unit := do
  let s ← Act.get
  Act.modify fun s => { s with nextConnectionId := (s.nextConnectionId + 1) % 2 ^ 32 }
  Act.assert (s.activeConnections s.nextConnectionId).isNone
    "Acceptor::handleAccept: _activeConnections.find(newConnectionId) == end"
  Act.modify fun t => { t with
    connections := Function.update t.connections t.nextConnection
      (some ⟨s.nextConnectionId, Strand.init writeFaults uninitialized⟩)
    nextConnection := t.nextConnection + 1
    activeConnections :=
      Function.update t.activeConnections s.nextConnectionId (some t.nextConnection) }

def handleConnectionClose (connectionId : Nat) : Act (Nat × Event) Server Unit := do
  let s ← Act.get
  Act.assert (s.activeConnections connectionId).isSome
    "Acceptor::handleConnectionClose: _activeConnections.find(connectionId) != end"
  Act.modify (·.post (.closeConnection connectionId))

def closeConnection (connectionId : Nat) : Act (Nat × Event) Server Unit := do
  let s ← Act.get
  Act.assert (s.activeConnections connectionId).isSome
    "Acceptor::closeConnection: _activeConnections.find(connectionId) != end"
  Act.modify fun s => { s with
    activeConnections := Function.update s.activeConnections connectionId none }

/-- `Acceptor::handleNewRequest`, called by connection `c`; its weak pointer
can be locked, since the caller has just looked the object up in its map. -/
def acceptorHandleNewRequest (c connectionId requestId ptr : Nat) :
    Act (Nat × Event) Server Unit := do
  let s ← Act.get
  match s.activeConnections connectionId with
  | none =>
      Act.assert false "Acceptor::handleNewRequest: _activeConnections.find(connectionId) != end"
  | some active => Act.modify fun s =>
      { (s.setRequest s.nextRequest
          { requestId := requestId, dataWeakPtr := some ptr, connectionId := connectionId,
            connectionWeakPtr := active, hasReplied := false, home := c, phase := .queued }).post
          (.handleNewRequest s.nextRequest) with
        nextRequest := s.nextRequest + 1 }

/-- The two callbacks, as bound in `handleAccept`. -/
def runCallback (c connectionId : Nat) : Event → Act (Nat × Event) Server Unit
  | .requestReady requestId ptr _ => acceptorHandleNewRequest c connectionId requestId ptr
  | .closeCallback => handleConnectionClose connectionId
  | _ => pure ()

def runCallbacks (c connectionId : Nat) : List Event → Act (Nat × Event) Server Unit
  | [] => pure ()
  | e :: es => do
      runCallback c connectionId e
      runCallbacks c connectionId es

/-- A step of the strand of connection `c`, with the callbacks it makes. -/
def strandStep (c : Nat) (l : Strand.Step) : Act (Nat × Event) Server Unit := do
  let s ← Act.get
  match s.connections c with
  | none => pure ()
  | some k => do
      let o := Strand.machine.act l (k.strand.allocateFrom s.nextAddress)
      Act.modify (·.setStrand c k.connectionId o.state)
      Act.emits (o.events.map fun e => (c, e))
      runCallbacks c k.connectionId o.events
      Act.exit o.exit

/-! ## What a `Fastcgi::Request` does -/

/-- The connection object is still in `_activeConnections`. -/
def isActive (s : Server) (c : Nat) : Bool :=
  match s.connections c with
  | none => false
  | some k => s.activeConnections k.connectionId == some c

/-- `_connectionWeakPtr.lock() != NULL`. -/
def lockConnection (s : Server) (rq : Request) : Bool := s.isActive rq.connectionWeakPtr

/-- `_dataWeakPtr.lock() != NULL`: the object is held by the map it was made
in, or by a queued reply. -/
def lockData (s : Server) (rq : Request) : Bool :=
  match rq.dataWeakPtr with
  | none => false
  | some ptr =>
      (s.isActive rq.home && (s.connections rq.home).any fun k =>
        k.strand.connection.data.isValidRequest rq.requestId ptr) ||
      (s.connections rq.connectionWeakPtr).any fun k =>
        k.strand.connection.socket.strand.contains (.commitReplyImpl rq.requestId ptr)

def isValid (s : Server) (rq : Request) : Bool :=
  !rq.hasReplied && s.lockData rq && s.lockConnection rq

/-- The pointer it returns is the one to the data. -/
def getConnectionAndRequestData (rq : Request) : Act (Nat × Event) Server Nat := do
  if rq.hasReplied then
    Act.throw "The request has already been committed or cancelled"
  else do
    let s ← Act.get
    match rq.dataWeakPtr with
    | none => Act.throw "The request is not active or aborted"
    | some ptr =>
        if s.lockConnection rq && s.lockData rq then pure ptr
        else Act.throw "The request is not active or aborted"

def commit (q : Nat) (rq : Request) : Act (Nat × Event) Server Unit := do
  let ptr ← getConnectionAndRequestData rq
  strandStep rq.connectionWeakPtr (.commitReply rq.requestId ptr)
  Act.modify (·.setRequest q rq.replied)

def cancel (q : Nat) (rq : Request) : Act (Nat × Event) Server Unit := do
  let ptr ← getConnectionAndRequestData rq
  strandStep rq.home (.edit rq.requestId ptr .cancelBuffers)
  strandStep rq.connectionWeakPtr (.commitReply rq.requestId ptr)
  Act.modify (·.setRequest q rq.replied)

/-- An access through `getFCGIParams()`, `err()`, `out()` or `setAppStatus()`. -/
def edit (rq : Request) (change : UserEdit) : Act (Nat × Event) Server Unit := do
  let ptr ← getConnectionAndRequestData rq
  strandStep rq.home (.edit rq.requestId ptr change)

/-- The destructor up to its test. -/
def destroy (q : Nat) (rq : Request) : Act (Nat × Event) Server Unit := do
  let s ← Act.get
  Act.modify (·.setRequest q (rq.withPhase (if s.isValid rq then .cancelling else .destroyed)))

/-- The rest of the destructor of a request found valid. -/
def destroyValid (q : Nat) (rq : Request) : Act (Nat × Event) Server Unit := do
  Act.tryCatch (cancel q rq) fun _ => Act.assert false "Fastcgi::Request::~Request: false"
  Act.modify (·.setRequest q (rq.replied.withPhase .destroyed))

/-! ## The server -/

/-- `Server::handleNewRequest`; `routed` says that `route()` returned a handler.
What `route()` writes to the parameters is an `edit` right behind this step. -/
def handleNewRequest (routed : Bool) (q : Nat) (rq : Request) : Act (Nat × Event) Server Unit := do
  let _ ← getConnectionAndRequestData rq
  if routed then do
    let s ← Act.get
    Act.assert (s.activeRequestHandlers rq.getId).isNone
      "Server::handleNewRequest: iter == _activeRequestHandlers.end()"
    Act.modify fun s => { s.setRequest q (rq.withPhase .held) with
      activeRequestHandlers := Function.update s.activeRequestHandlers rq.getId (some q) }
  else
    Act.modify (·.setRequest q (rq.withPhase .released))

def handleRequestDelete (requestId : Nat × Nat) (q : Nat) : Act (Nat × Event) Server Unit := do
  let s ← Act.get
  Act.when (s.status ≠ .stopped) (Act.modify (·.post (.handleRequestDeleteImpl requestId q)))

def handleRequestDeleteImpl (requestId : Nat × Nat) : Act (Nat × Event) Server Unit := do
  let s ← Act.get
  Act.assert (s.activeRequestHandlers requestId).isSome
    "Server::handleRequestDeleteImpl: iter != _activeRequestHandlers.end()"
  Act.modify fun s => { s with
    activeRequestHandlers := Function.update s.activeRequestHandlers requestId none }

/-- The last reference to a `Server::Request` goes: its callback runs, and
then the last reference to the `Fastcgi::Request` goes. -/
def release (q : Nat) (rq : Request) : Act (Nat × Event) Server Unit := do
  handleRequestDelete rq.getId q
  Act.modify (·.setRequest q (rq.withPhase .released))

/-! ## Steps -/

/-- Run code on the request `q`. -/
def withRequest (q : Nat) (f : Request → Act (Nat × Event) Server Unit) :
    Act (Nat × Event) Server Unit := do
  let s ← Act.get
  match s.requests q with
  | none => pure ()
  | some rq => f rq

def runTask (routed : Bool) : AcceptorTask → Act (Nat × Event) Server Unit
  | .handleNewRequest q => withRequest q (handleNewRequest routed q)
  | .closeConnection connectionId => closeConnection connectionId
  | .handleRequestDeleteImpl requestId _ => handleRequestDeleteImpl requestId

/-- An exception that leaves a task leaves `io_service::run` and with it the
function of a thread, and the process is terminated. -/
def acceptorTask (routed : Bool) : Act (Nat × Event) Server Unit := do
  let s ← Act.get
  match s.acceptorStrand with
  | [] => pure ()
  | task :: rest => do
      Act.modify fun s => { s with acceptorStrand := rest }
      Act.tryCatch (runTask routed task) fun what => do
        Act.modify fun s => { s with terminated := true }
        Act.throw what

/-- What a user makes of an exception is his. -/
def userCall (x : Act (Nat × Event) Server Unit) : Act (Nat × Event) Server Unit :=
  Act.tryCatch x fun _ => pure ()

inductive Step where
  | accept (writeFaults : List (Option Nat)) (uninitialized : Nat → BitVec 32)
  | strand (c : Nat) (l : Strand.Step)
  | acceptorTask (routed : Bool)
  | commit (q : Nat)
  | cancel (q : Nat)
  | edit (q : Nat) (change : UserEdit)
  | release (q : Nat)
  | destroy (q : Nat)
  | destroyValid (q : Nat)
  | stop

def act : Step → Act (Nat × Event) Server Unit
  | .accept writeFaults uninitialized => handleAccept writeFaults uninitialized
  | .strand c l => strandStep c l
  | .acceptorTask routed => Server.acceptorTask routed
  | .commit q => userCall (withRequest q (Server.commit q))
  | .cancel q => userCall (withRequest q (Server.cancel q))
  | .edit q change => userCall (withRequest q fun rq => Server.edit rq change)
  | .release q => withRequest q (Server.release q)
  | .destroy q => withRequest q (Server.destroy q)
  | .destroyValid q => withRequest q (Server.destroyValid q)
  | .stop => Act.modify fun s => { s with status := .stopped }

/-- The io_service runs tasks. -/
def running (s : Server) : Bool := s.status = .started && !s.terminated

def inPhase (s : Server) (q : Nat) (phase : Request.Phase) : Bool :=
  !s.terminated && (s.requests q).any fun rq => rq.phase = phase

/-- A strand takes its own steps; `stop()` waits for a read loop to finish. -/
def strandEnabled (s : Server) (c : Nat) (l : Strand.Step) : Bool :=
  (s.connections c).any (fun k => Strand.machine.enabled k.strand l) &&
    match l with
    | .handleRead _ _ => s.running
    | .nextPacket => !s.terminated
    | .runTask => s.running
    | .commitReply _ _ => false
    | .edit _ _ _ => false

def enabled (s : Server) : Step → Bool
  | .accept _ _ => s.running
  | .strand c l => s.strandEnabled c l
  | .acceptorTask _ => s.running && !s.acceptorStrand.isEmpty
  | .commit q => s.inPhase q .held
  | .cancel q => s.inPhase q .held
  | .edit q _ => s.inPhase q .held
  | .release q => s.inPhase q .held
  | .destroy q => s.inPhase q .released
  | .destroyValid q => s.inPhase q .cancelling
  | .stop => s.running

def machine : Machine (Nat × Event) Server Step where
  enabled := enabled
  act := act

end Server

end Santiago
