import Santiago.Pairs

/-!
# Santiago.RequestData

The data of one request: what came in from the web server and what the user
wrote for it.  The constructor sets everything but `_appStatus`, so the model
takes the value it finds in memory as an argument.
-/

namespace Santiago

open Bytes

structure RequestData where
  paramsMap : ParamsMap
  paramsBuffer : Bytes
  in_ : Bytes
  outBuffer : Bytes
  errBuffer : Bytes
  /-- A C++ `int`. -/
  appStatus : BitVec 32
deriving DecidableEq

namespace RequestData

/-- `new RequestData()`, with the `_appStatus` the memory happens to hold. -/
def new (appStatus : BitVec 32) : RequestData where
  paramsMap := ∅
  paramsBuffer := []
  in_ := []
  outBuffer := []
  errBuffer := []
  appStatus := appStatus

/-- `parseFCGIParams()`: the size goes through `ParsePairs`' 32-bit parameter. -/
def parseFCGIParams (d : RequestData) : RequestData :=
  { d with paramsMap := parsePairs d.paramsBuffer (d.paramsBuffer.length % 2 ^ 32) d.paramsMap }

end RequestData

/-- What a user may do to the data of a request he holds: write to the two
streams, set the status, or change the map `getFCGIParams()` hands out. -/
inductive UserEdit where
  | out (bs : Bytes)
  | err (bs : Bytes)
  | setAppStatus (status : BitVec 32)
  | fcgiParams (params : ParamsMap)
  /-- The two buffer operations at the start of `cancel()`. -/
  | cancelBuffers

deriving instance DecidableEq for UserEdit

/-- The text `cancel()` writes to the error stream. -/
def cancelText : Bytes := asciiBytes "Request cancelled by application server"

def UserEdit.apply : UserEdit → RequestData → RequestData
  | .out bs, d => { d with outBuffer := d.outBuffer ++ bs }
  | .err bs, d => { d with errBuffer := d.errBuffer ++ bs }
  | .setAppStatus status, d => { d with appStatus := status }
  | .fcgiParams params, d => { d with paramsMap := params }
  | .cancelBuffers, d => { d with
      outBuffer := d.outBuffer.drop d.outBuffer.length
      errBuffer := d.errBuffer ++ cancelText }

end Santiago
