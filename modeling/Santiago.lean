import Santiago.Lib.Effect
import Santiago.Lib.Alike
import Santiago.Lib.Machine
import Santiago.Lib.Bytes
import Santiago.Lib.Table
import Santiago.Lib.Wrapping
import Santiago.Lib.Delimited
import Santiago.Lib.Blocks
import Santiago.Lib.Component
import Santiago.Lib.Rest
import Santiago.Lib.Chunks
import Santiago.Protocol
import Santiago.Pairs
import Santiago.Pairs.Grammar
import Santiago.Pairs.Bounds
import Santiago.RequestData
import Santiago.ConnectionData
import Santiago.Calls
import Santiago.Ready
import Santiago.PacketSocket
import Santiago.Reading
import Santiago.Progress
import Santiago.Writing
import Santiago.RecordSocket
import Santiago.Connection
import Santiago.Connection.Steps
import Santiago.GetValues
import Santiago.Strand
import Santiago.Lengths
import Santiago.Indeterminate
import Santiago.Rejected
import Santiago.RequestLife
import Santiago.WindDown
import Santiago.KeepConn
import Santiago.ReadSide
import Santiago.EndRequest
import Santiago.Framing
import Santiago.Reassembly
import Santiago.ReplyWire
import Santiago.Output
import Santiago.Custody
import Santiago.Server
import Santiago.Server.Steps
import Santiago.Server.WellFormed
import Santiago.Server.Accepting
import Santiago.Server.Requests
import Santiago.Replies
import Santiago.Input
import Santiago.Closed
import Santiago.Server.View
import Santiago.Server.Ownership
import Santiago.Server.Handlers
import Santiago.Server.Closing
import Santiago.Server.Indeterminate
import Santiago.Server.Component
import Santiago.Server.Fatal
import Santiago.Server.Written
import Santiago.Server.Received
import Santiago.Server.Rest
import Santiago.Server.Arrived
import Santiago.Server.Answered
import Santiago.Server.Footprint
import Santiago.Server.Echo
import Santiago.Server.Served
