import Santiago.PacketSocket

/-!
# Santiago.RecordSocket

What a packet means.  `handleNewPacket` answers the management records and a
begin-request for an unsupported role itself, and passes everything else to
the callbacks its constructor was given; `sendReply` writes the streams and
the end of one request.

`RecordSocket σ` is the class: the packet socket inside an owner `σ`, and the
five callbacks on that owner.
-/

namespace Santiago

open Effect Bytes Std PacketSocket

inductive TransceiverEventInfo where
  | socketClosed
  | connectionWindDown
deriving DecidableEq

structure RecordSocket (σ : Type) where
  socket : σ → PacketSocket
  setSocket : PacketSocket → σ → σ
  beginRequestCallback : Nat → Act Event σ Unit
  abortRequestCallback : Nat → Act Event σ Unit
  stdinCallback : Nat → Bytes → Act Event σ Unit
  paramsCallback : Nat → Bytes → Act Event σ Unit
  transceiverEventCallback : TransceiverEventInfo → Act Event σ Unit

namespace RecordSocket

variable {σ α : Type} (rs : RecordSocket σ)

/-- Run code of the packet socket. -/
def onSocket (x : Act Event PacketSocket α) : Act Event σ α := Act.zoom rs.socket rs.setSocket x

/-- A call of `writePacket` with a buffer's own size, which its `unsigned int`
parameter narrows. -/
def writeBuffer (requestId : Nat) (headerType : UInt8) (buffer : Bytes) : Act Event σ Bool :=
  rs.onSocket (writePacket requestId headerType (buffer.length % 2 ^ 32) buffer)

/-! ## Replies -/

/-- The body that ends a request of the given status. -/
def endRequestBody (appStatus : BitVec 32) : FcgiEndRequestBody where
  appStatusB3 := UInt8.ofBitVec ((appStatus.sshiftRight 24 &&& 0xff#32).setWidth 8)
  appStatusB2 := UInt8.ofBitVec ((appStatus.sshiftRight 16 &&& 0xff#32).setWidth 8)
  appStatusB1 := UInt8.ofBitVec ((appStatus.sshiftRight 8 &&& 0xff#32).setWidth 8)
  appStatusB0 := UInt8.ofBitVec ((appStatus &&& 0xff#32).setWidth 8)
  protocolStatus := fcgiRequestComplete

/-- What `sendReply` leaves behind: its error code and the two buffers, each
consumed once it was written. -/
structure Reply where
  ec : Bool
  outBuffer : Bytes
  errBuffer : Bytes

/-- The part of `sendReply` behind the two buffers. -/
def sendEnd (requestId : Nat) (appStatus : BitVec 32) : Act Event σ Bool := do
  let ec ← rs.writeBuffer requestId fcgiStdout []
  if ec then
    pure true
  else do
    let ec ← rs.writeBuffer requestId fcgiStderr []
    if ec then
      pure true
    else
      rs.writeBuffer requestId fcgiEndRequest (endRequestBody appStatus).toBytes

/-- One of the two optional buffers of `sendReply`: written when not empty. -/
def sendStream (requestId : Nat) (headerType : UInt8) (buffer : Bytes) : Act Event σ Bool :=
  if buffer.length ≠ 0 then rs.writeBuffer requestId headerType buffer else pure false

def sendReply (requestId : Nat) (outBuffer errBuffer : Bytes) (appStatus : BitVec 32) :
    Act Event σ Reply := do
  let ec ← rs.sendStream requestId fcgiStdout outBuffer
  if ec then
    pure ⟨true, outBuffer, errBuffer⟩
  else do
    let ec ← rs.sendStream requestId fcgiStderr errBuffer
    if ec then
      pure ⟨true, outBuffer.drop outBuffer.length, errBuffer⟩
    else do
      let ec ← rs.sendEnd requestId appStatus
      pure ⟨ec, outBuffer.drop outBuffer.length, errBuffer.drop errBuffer.length⟩

/-! ## Packets -/

/-- Write an answer; a failing write closes the connection. -/
def answer (requestId : Nat) (headerType : UInt8) (body : Bytes) : Act Event σ Unit := do
  let ec ← rs.writeBuffer requestId headerType body
  Act.when ec (rs.transceiverEventCallback .socketClosed)

/-- The value the server has for a queried name. -/
def getValue? (name : Bytes) : Option Bytes :=
  if name = fcgiMaxConns then some (asciiBytes "100")
  else if name = fcgiMaxReqs then some (asciiBytes "1000")
  else if name = fcgiMpxsConns then some (asciiBytes "1")
  else none

/-- The content of the answer to a query: the known names in map order. -/
def getValuesResult (pairs : ParamsMap) : Bytes :=
  pairs.toList.foldl (fun buffer p =>
    match getValue? p.1 with
    | some value => writePair buffer p.1 value
    | none => buffer) []

def handleGetValues (content : Bytes) : Act Event σ Unit :=
  rs.answer 0 fcgiGetValuesResult (getValuesResult (parsePairs content content.length ∅))

/-- The body that ends a request of unsupported role. -/
def unknownRoleBody : Bytes := ({ protocolStatus := fcgiUnknownRole } : FcgiEndRequestBody).toBytes

/-- The body that ends an aborted request. -/
def abortedBody : Bytes :=
  ({ appStatusB0 := 1, protocolStatus := fcgiRequestComplete } : FcgiEndRequestBody).toBytes

def handleBeginRequest (requestId : Nat) (content : Bytes) : Act Event σ Unit :=
  if content.length < FcgiBeginRequestBody.size then
    Act.throw "invalid begin request body"
  else
    let body := FcgiBeginRequestBody.cast content
    if body.role ≠ fcgiResponder then
      rs.answer requestId fcgiEndRequest unknownRoleBody
    else do
      rs.beginRequestCallback requestId
      Act.when (body.flags &&& fcgiKeepConn = 0)
        (rs.transceiverEventCallback .connectionWindDown)

/-- The answer goes out under the type number `FCGI_REQUEST_COMPLETE`, which
is the protocol status of the body and not a record type; and it goes out
before the id is looked up. -/
def handleAbortRequest (requestId : Nat) : Act Event σ Unit := do
  rs.answer requestId fcgiRequestComplete abortedBody
  rs.abortRequestCallback requestId

def handleUnknownType (headerType : UInt8) : Act Event σ Unit :=
  rs.answer 0 fcgiUnknownType ({ type := headerType } : FcgiUnknownTypeBody).toBytes

/-- The `switch` of `handleNewPacket`. -/
def dispatch (requestId : Nat) (headerType : UInt8) (content : Bytes) : Act Event σ Unit :=
  if headerType = fcgiGetValues then rs.handleGetValues content
  else if headerType = fcgiBeginRequest then rs.handleBeginRequest requestId content
  else if headerType = fcgiAbortRequest then rs.handleAbortRequest requestId
  else if headerType = fcgiParams then rs.paramsCallback requestId content
  else if headerType = fcgiStdin then rs.stdinCallback requestId content
  else if headerType = fcgiData then Act.throw "FCGI_DATA "
  else rs.handleUnknownType headerType

def handleNewPacket (ec : Bool) (requestId : Nat) (headerType : UInt8) (content : Bytes) :
    Act Event σ Unit :=
  if ec then do
    rs.onSocket close
    rs.transceiverEventCallback .socketClosed
  else do
    Act.emit (.newPacket requestId headerType content)
    rs.dispatch requestId headerType content

end RecordSocket

end Santiago
