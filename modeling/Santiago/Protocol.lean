import Santiago.Lib.Bytes

/-!
# Santiago.Protocol

The wire format of `fastcgi.h`: the record types, the eight-byte header and
the fixed bodies.  A header is read out of a buffer by a cast, so `cast`
takes whatever bytes stand there and leaves the length check to its caller.

`WireRecord` is a version-1 record as a peer may send it; its fields carry
the bounds that the header's one- and two-byte counters impose.
-/

namespace Santiago

open Bytes

/-! ## Constants -/

def fcgiHeaderLen : Nat := 8
def fcgiVersion1 : UInt8 := 1

def fcgiBeginRequest : UInt8 := 1
def fcgiAbortRequest : UInt8 := 2
def fcgiEndRequest : UInt8 := 3
def fcgiParams : UInt8 := 4
def fcgiStdin : UInt8 := 5
def fcgiStdout : UInt8 := 6
def fcgiStderr : UInt8 := 7
def fcgiData : UInt8 := 8
def fcgiGetValues : UInt8 := 9
def fcgiGetValuesResult : UInt8 := 10
def fcgiUnknownType : UInt8 := 11

/-- Mask for the flags of a begin-request body. -/
def fcgiKeepConn : UInt8 := 1

def fcgiResponder : Nat := 1

/- Values of the protocolStatus of an end-request body. -/
def fcgiRequestComplete : UInt8 := 0
def fcgiUnknownRole : UInt8 := 3

/-- The bytes of an ASCII literal. -/
def asciiBytes (s : String) : Bytes := s.toList.map fun c => UInt8.ofNat c.toNat

def fcgiMaxConns : Bytes := asciiBytes "FCGI_MAX_CONNS"
def fcgiMaxReqs : Bytes := asciiBytes "FCGI_MAX_REQS"
def fcgiMpxsConns : Bytes := asciiBytes "FCGI_MPXS_CONNS"

/-! ## The record header -/

structure FcgiHeader where
  version : UInt8
  type : UInt8
  requestIdB1 : UInt8
  requestIdB0 : UInt8
  contentLengthB1 : UInt8
  contentLengthB0 : UInt8
  paddingLength : UInt8
  reserved : UInt8
deriving DecidableEq

namespace FcgiHeader

/-- `*reinterpret_cast<const FCGI_Header*>(data)`; only read behind a length check. -/
def cast (data : Bytes) : FcgiHeader where
  version := data.getD 0 0
  type := data.getD 1 0
  requestIdB1 := data.getD 2 0
  requestIdB0 := data.getD 3 0
  contentLengthB1 := data.getD 4 0
  contentLengthB0 := data.getD 5 0
  paddingLength := data.getD 6 0
  reserved := data.getD 7 0

def toBytes (h : FcgiHeader) : Bytes :=
  [h.version, h.type, h.requestIdB1, h.requestIdB0, h.contentLengthB1, h.contentLengthB0,
    h.paddingLength, h.reserved]

def requestId (h : FcgiHeader) : Nat := (h.requestIdB1.toNat <<< 8) + h.requestIdB0.toNat

def contentLength (h : FcgiHeader) : Nat :=
  (h.contentLengthB1.toNat <<< 8) + h.contentLengthB0.toNat

/-- Header, content and padding together. -/
def recordLength (h : FcgiHeader) : Nat :=
  fcgiHeaderLen + h.contentLength + h.paddingLength.toNat

@[simp] theorem length_toBytes (h : FcgiHeader) : h.toBytes.length = 8 := rfl

@[simp] theorem cast_toBytes_append (h : FcgiHeader) (rest : Bytes) :
    cast (h.toBytes ++ rest) = h := rfl

theorem eight_le_recordLength (h : FcgiHeader) : 8 ≤ h.recordLength := by
  rw [recordLength, fcgiHeaderLen]; omega

/-- A record that is taken off a buffer takes at least its header with it. -/
theorem length_drop_lt (h : FcgiHeader) {b : Bytes} (hb : fcgiHeaderLen ≤ b.length) :
    (b.drop h.recordLength).length < b.length := by
  have h8 := h.eight_le_recordLength
  rw [fcgiHeaderLen] at hb
  rw [List.length_drop]
  omega

theorem requestId_lt (h : FcgiHeader) : h.requestId < 65536 := two_octets_lt _ _

end FcgiHeader

/-! ## The fixed bodies -/

structure FcgiBeginRequestBody where
  roleB1 : UInt8
  roleB0 : UInt8
  flags : UInt8

namespace FcgiBeginRequestBody

/-- `sizeof(FCGI_BeginRequestBody)`: three named bytes and five reserved ones. -/
def size : Nat := 8

def cast (content : Bytes) : FcgiBeginRequestBody where
  roleB1 := content.getD 0 0
  roleB0 := content.getD 1 0
  flags := content.getD 2 0

def role (b : FcgiBeginRequestBody) : Nat := (b.roleB1.toNat <<< 8) + b.roleB0.toNat

end FcgiBeginRequestBody

structure FcgiEndRequestBody where
  appStatusB3 : UInt8 := 0
  appStatusB2 : UInt8 := 0
  appStatusB1 : UInt8 := 0
  appStatusB0 : UInt8 := 0
  protocolStatus : UInt8 := 0

/-- The body as sent, its three reserved bytes zeroed by `bzero`. -/
def FcgiEndRequestBody.toBytes (b : FcgiEndRequestBody) : Bytes :=
  [b.appStatusB3, b.appStatusB2, b.appStatusB1, b.appStatusB0, b.protocolStatus, 0, 0, 0]

@[simp] theorem FcgiEndRequestBody.length_toBytes (b : FcgiEndRequestBody) :
    b.toBytes.length = 8 := rfl

structure FcgiUnknownTypeBody where
  type : UInt8 := 0

def FcgiUnknownTypeBody.toBytes (b : FcgiUnknownTypeBody) : Bytes :=
  [b.type, 0, 0, 0, 0, 0, 0, 0]

/-! ## Records on the wire -/

/-- A version-1 record: its counters fit the header, and padding and the
reserved byte may hold anything. -/
structure WireRecord where
  type : UInt8
  requestId : Nat
  content : Bytes
  padding : Bytes
  reserved : UInt8
  requestId_lt : requestId < 65536
  content_lt : content.length < 65536
  padding_lt : padding.length < 256

namespace WireRecord

def header (r : WireRecord) : FcgiHeader where
  version := fcgiVersion1
  type := r.type
  requestIdB1 := octet (r.requestId >>> 8)
  requestIdB0 := octet r.requestId
  contentLengthB1 := octet (r.content.length >>> 8)
  contentLengthB0 := octet r.content.length
  paddingLength := octet r.padding.length
  reserved := r.reserved

def toBytes (r : WireRecord) : Bytes := r.header.toBytes ++ (r.content ++ r.padding)

@[simp] theorem requestId_header (r : WireRecord) : r.header.requestId = r.requestId :=
  two_octets r.requestId_lt

@[simp] theorem contentLength_header (r : WireRecord) :
    r.header.contentLength = r.content.length :=
  two_octets r.content_lt

/-- The header's lengths add up to the record's own length. -/
theorem length_toBytes (r : WireRecord) : r.toBytes.length = r.header.recordLength := by
  have hpad : (octet r.padding.length).toNat = r.padding.length := by
    rw [toNat_octet]; exact Nat.mod_eq_of_lt r.padding_lt
  rw [FcgiHeader.recordLength, contentLength_header, toBytes]
  simp only [List.length_append, FcgiHeader.length_toBytes, fcgiHeaderLen, header, hpad]
  omega

end WireRecord

end Santiago
