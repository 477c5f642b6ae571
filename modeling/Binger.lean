import Binger.Foundation.Bytes
import Binger.Foundation.Segments
import Binger.Foundation.Script
import Binger.Foundation.Runs
import Binger.Foundation.Owners
import Binger.Foundation.Bounded
import Binger.Foundation.Loops
import Binger.Foundation.Atomics
import Binger.Foundation.AtomicPairs
import Binger.Foundation.AtomicReads
import Binger.Error
import Binger.Sockaddr.Codec
import Binger.Sockaddr.Copies
import Binger.Batch.Send
import Binger.Batch.Recv
import Binger.Batch.SendHistory
import Binger.Batch.RecvLength
import Binger.Kernel
import Binger.Platform.RetryEintr
import Binger.Platform.SendHeaders
import Binger.Platform.Send
import Binger.Platform.SendSpec
import Binger.Platform.SendAttempt
import Binger.Platform.LinuxSend
import Binger.Platform.WindowsSend
import Binger.Platform.HeaderArrays
import Binger.Platform.GsoControl
import Binger.Platform.RecvHeaders
import Binger.Platform.Recv
import Binger.Platform.RecvSpec
import Binger.Platform.GroSplit
import Binger.Platform.RecvBranches
import Binger.Platform.Gro
import Binger.Platform.GroKept
import Binger.Platform.Offload
import Binger.Platform.LinuxRecv
import Binger.Platform.ControlBytes
import Binger.Platform.RecvControl
import Binger.Platform.Chunking
import Binger.Platform.RecvLoops
import Binger.Platform.RecvRepresentation
import Binger.Platform.NotReady
import Binger.Platform.LinuxSyscalls
import Binger.Platform.FailedCalls
import Binger.Platform.Leftovers
import Binger.Platform.Metadata
import Binger.Platform.PacketMetadata
import Binger.Platform.RecvTakes
import Binger.Platform.Portable
import Binger.Socket.State
import Binger.Socket.Send
import Binger.Socket.Completeness
import Binger.Socket.Recv
import Binger.Socket.RecvResult
import Binger.Socket.RecvRuns
import Binger.Socket.BatchOperations
import Binger.Socket.Pktinfo
import Binger.Socket.Readiness
import Binger.Socket.Gso
import Binger.Socket.SinglePacket
import Binger.Socket.Metrics
import Binger.Socket.Snapshot
import Binger.Socket.Reset
import Binger.Socket.Tasks
import Binger.Socket.Pending
import Binger.Socket.Accounting
import Binger.Socket.Options
import Binger.Socket.OptionCalls
import Binger.Socket.Lifecycle
import Binger.Socket.ProcessRuns
import Binger.Socket.Timestamping
import Binger.Socket.WireRuns
import Binger.Socket.Endpoint
import Binger.Socket.Network
import Binger.Socket.RecvAccounting
import Binger.Socket.Observers
import Binger.Socket.Portability
import Binger.Socket.SyscallAccounting
import Binger.Socket.Adaptive
import Binger.Socket.AdaptiveSend
import Binger.Socket.AdaptiveCounting
import Binger.Pool.Bufs
import Binger.Pool.SizePromise
