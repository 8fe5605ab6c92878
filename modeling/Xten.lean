import Xten.Std.AlarmQueue
import Xten.Std.Chunks
import Xten.Std.IntegerCodec
import Xten.Std.Interleaving
import Xten.Std.Programs
import Xten.Std.StreamCodec
import Xten.Std.Holdings
import Xten.Std.Histories
import Xten.Std.OrderedSet
import Xten.Std.Delimiters
import Xten.Std.Numerals
import Xten.Std.HexGroups
import Xten.Std.Occurrences
import Xten.Std.Rounds
import Xten.Std.LinkedBlocks
import Xten.Std.SerialNumbers
import Xten.Timer.Wheel
import Xten.Timer.Placement
import Xten.Timer.Tracking
import Xten.Timer.Refinement
import Xten.Timer.Exactness
import Xten.Timer.Labels
import Xten.Timer.Cancellation
import Xten.Timer.Manager
import Xten.Timer.Representation
import Xten.Timer.Expiry
import Xten.Timer.Announcing
import Xten.Timer.Delays
import Xten.ByteArray.Nodes
import Xten.ByteArray.Flat
import Xten.ByteArray.Walk
import Xten.ByteArray.Refinement
import Xten.ByteArray.Cursor
import Xten.ByteArray.Regions
import Xten.ByteArray.Typed
import Xten.ByteArray.RoundTrip
import Xten.ByteArray.Scan
import Xten.ByteArray.Calls
import Xten.ByteArray.NullNode
import Xten.ByteArray.Exposure
import Xten.ByteArray.Positions
import Xten.ByteArray.Varints
import Xten.ByteArray.Strings
import Xten.ByteArray.StringBuffers
import Xten.ByteArray.Prefixes
import Xten.Stream.Socket
import Xten.Stream.Transfer
import Xten.Stream.Fill
import Xten.Rock.Messages
import Xten.Rock.Parsing
import Xten.Rock.BodyRoundTrip
import Xten.Rock.Acceptance
import Xten.Rock.Framing
import Xten.Rock.InStep
import Xten.Rock.Faults
import Xten.Rock.Decoder
import Xten.Rock.Agreement
import Xten.Zlib.ZlibStream
import Xten.Zlib.Buffering
import Xten.Rock.Inflating
import Xten.Rock.Damage
import Xten.Rock.Expansion
import Xten.Rock.ConnectionPool
import Xten.FoxThread.Dispatch
import Xten.FoxThread.Order
import Xten.FoxThread.Pool
import Xten.FoxThread.PoolMoves
import Xten.FoxThread.Leases
import Xten.FoxThread.HandOut
import Xten.FoxThread.Failing
import Xten.FoxThread.Checking
import Xten.Xftp.Messages
import Xten.Xftp.Escapes
import Xten.Xftp.RoundTrip
import Xten.Xftp.Workers
import Xten.Xftp.Ordering
import Xten.Xftp.Chunks
import Xten.Rock.Requests
import Xten.Rock.Steps
import Xten.Rock.Completion
import Xten.Rock.Progress
import Xten.Rock.Closing
import Xten.Rock.Custody
import Xten.Rock.Outcome
import Xten.Rock.Matching
import Xten.Rock.Answers
import Xten.Scheduler.Workers
import Xten.Scheduler.Moves
import Xten.Scheduler.Suspension
import Xten.Scheduler.Tasks
import Xten.Scheduler.Wakeups
import Xten.Scheduler.Stopping
import Xten.Scheduler.LocalQueues
import Xten.Scheduler.LocalMoves
import Xten.Scheduler.Conservation
import Xten.Scheduler.Switching
import Xten.Scheduler.Balancing
import Xten.Mutex.WPRWMutex
import Xten.Fiber.Semaphore
import Xten.Fiber.Mutex
import Xten.Fiber.Exclusion
import Xten.Fiber.Programs
import Xten.Fiber.Wakeups
import Xten.Fiber.ObjPool
import Xten.Worker.Group
import Xten.Worker.Balance
import Xten.Worker.WaitAll
import Xten.Worker.Batches
import Xten.Worker.Timed
import Xten.AsyncStream.Connection
import Xten.AsyncStream.Permits
import Xten.AsyncStream.SendQueue
import Xten.AsyncStream.Wakeup
import Xten.WebSocket.Frames
import Xten.WebSocket.Receiving
import Xten.WebSocket.Exchange
import Xten.WebSocket.RoundTrip
import Xten.WebSocket.Fragments
import Xten.WebSocket.Control
import Xten.WebSocket.Rounds
import Xten.WebSocket.Session
import Xten.WebSocket.SendQueue
import Xten.WebSocket.Wire
import Xten.Util.Strings
import Xten.Util.UrlCoding
import Xten.Util.Base64
import Xten.Util.Splitting
import Xten.Util.Replacing
import Xten.Http.Requests
import Xten.Http.Parser
import Xten.Http.Session
import Xten.Http.Headers
import Xten.Http.Machine
import Xten.Http.Segments
import Xten.Http.Pipelining
import Xten.Http.Buffers
import Xten.Http.BodyLength
import Xten.Http.Maps
import Xten.Http.Params
import Xten.Http.Uris
import Xten.Http.Methods
import Xten.Http.Responses
import Xten.Http.Delimiting
import Xten.IOManager.FdContexts
import Xten.IOManager.Calls
import Xten.IOManager.Sections
import Xten.IOManager.Pending
import Xten.IOManager.Growth
import Xten.Hook.DoIo
import Xten.Hook.Timeouts
import Xten.Hook.Reuse
import Xten.Hook.FdManager
import Xten.Hook.FileFlags
import Xten.Hook.Sleeps
import Xten.Kcp.Messages
import Xten.Kcp.Delivery
import Xten.Kcp.Listener
import Xten.Kcp.Screening
import Xten.Kcp.Duplicates
import Xten.Kcp.Limits
import Xten.Kcp.Waiting
import Xten.Kcp.Wakeups
import Xten.Kcp.Timeouts
import Xten.Kcp.Bounds
import Xten.Ikcp.ControlBlock
import Xten.Ikcp.Input
import Xten.Ikcp.Flush
import Xten.Ikcp.Windows
import Xten.Ikcp.Soundness
import Xten.Ikcp.Wire
import Xten.Ikcp.Peers
import Xten.Ikcp.Ordering
import Xten.Ikcp.Reliability
import Xten.Ikcp.Exchange
import Xten.Ikcp.Progress
import Xten.Ikcp.Onward
import Xten.Ikcp.Completion
import Xten.Kcp.Sessions
import Xten.Db.FoxRedis
import Xten.Db.FoxContexts
import Xten.Db.FoxCommands
import Xten.Db.RedisPool
import Xten.Db.RedisConservation
import Xten.Db.MySql
import Xten.Db.MySqlBinds
import Xten.Db.Transactions
import Xten.Std.Drawers
import Xten.Db.MySqlPool
import Xten.Db.MySqlOwnership
import Xten.Util.Yaml
import Xten.Log.LoggerDefine
import Xten.Log.Formatter
import Xten.Log.Patterns
import Xten.Config.Listeners
import Xten.Config.Flattening
import Xten.Config.Casts
import Xten.Log.Reloading
import Xten.Address.IPv6Address
import Xten.Address.Subnets
