import Cppws.Http.Fragmentation
import Cppws.Http.Absorption
import Cppws.Core.Threads
import Cppws.Core.ResponseOrder
import Cppws.Core.Deadlock
import Cppws.Net.Buffer
import Cppws.Net.Connection
import Cppws.Net.Flush
import Cppws.Core.PendingWrite
import Cppws.Core.Output
import Cppws.App.ReadCallback
import Cppws.Http.WireRequest
import Cppws.App.Pipeline
import Cppws.Net.Epoll
import Cppws.App.EventLoop
import Cppws.App.Ownership
import Cppws.App.Faults
import Cppws.App.Accepting
import Cppws.Net.Clearing
import Cppws.App.Accounts
import Cppws.App.Closing
import Cppws.Http.Grammar
import Cppws.Http.ContentLength
import Cppws.App.WorkerTask
import Cppws.Foundation.BlankLine
import Cppws.App.Framing
import Cppws.App.Registration
import Cppws.App.Armed
import Cppws.Core.Wakeups
import Cppws.App.Trace
import Cppws.Net.Sending
import Cppws.Net.Attempts
import Cppws.Net.Transfer
import Cppws.Net.Reading
import Cppws.Net.Lifetime
import Cppws.App.Provenance
import Cppws.App.Shutdown
import Cppws.Foundation.Path
import Cppws.Foundation.FileStatus
import Cppws.Http.Mime
import Cppws.Http.StaticHandler
import Cppws.App.Answering
import Cppws.Core.RecordedQueue
import Cppws.Foundation.ConditionVariable
import Cppws.Core.SharedQueue
import Cppws.Core.ThreadPool
import Cppws.Foundation.HandleTable
import Cppws.Net.FileUses
import Cppws.App.FileOwners
import Cppws.App.PeerStream
import Cppws.App.Subject
import Cppws.App.HalfClose
import Cppws.App.Backlog
import Cppws.Foundation.BoundedQueue
import Cppws.Net.ByteQueue
import Cppws.Http.HeaderLimit
import Cppws.Net.EpollWait
import Cppws.Net.Growth
import Cppws.Http.LineEndings
import Cppws.Http.ParserBounds
import Cppws.App.Decoding
import Cppws.Foundation.Potential
import Cppws.Core.PoolProgress
import Cppws.Core.Settling
import Cppws.Foundation.UniqueOwner
import Cppws.Net.Owning
import Cppws.App.Conversation
import Cppws.App.Delivery
import Cppws.App.Dialogue
import Cppws.App.Memory
import Cppws.Core.Joining
import Cppws.Http.Completable
import Cppws.App.Arrival
import Cppws.App.Session
