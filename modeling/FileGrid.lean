import FileGrid.Core.Bytes
import FileGrid.Core.Map
import FileGrid.Core.Runs
import FileGrid.Common.Sha256
import FileGrid.Common.ServerRegistry
import FileGrid.Common.NetUtils
import FileGrid.Common.HealthMonitor
import FileGrid.Head.ControlApi
import FileGrid.Head.Membership
import FileGrid.Common.ZooKeeper
import FileGrid.Head.Consensus
import FileGrid.Head.Liveness
import FileGrid.Metadata.Store
import FileGrid.Failover.Rereplicate
import FileGrid.Failover.Preservation
import FileGrid.Failover.Concurrent
import FileGrid.Storage.ChunkStorage
import FileGrid.Metadata.Request
import FileGrid.Core.Unordered
import FileGrid.Head.Upload
import FileGrid.Failover.Copies
import FileGrid.Grid.Steps
import FileGrid.Client.Client
import FileGrid.Grid.Sound
import FileGrid.Grid.Replicas
import FileGrid.Grid.Durability
import FileGrid.Grid.FailedUpload
import FileGrid.Grid.DeleteMessage
import FileGrid.Head.AcceptedUpload
import FileGrid.Metadata.Persistence
import FileGrid.Metadata.CrashAtomic
import FileGrid.Grid.Segmentation
import FileGrid.Grid.Memory
import FileGrid.Grid.Delete
import FileGrid.Grid.Retry
import FileGrid.Head.UploadThread
import FileGrid.Failover.WithUploads
import FileGrid.Failover.Reupload
import FileGrid.Grid.ConcurrentUploads
import FileGrid.Core.Fips180
import FileGrid.Common.Sha256Standard
import FileGrid.Common.HealthEvents
import FileGrid.Failover.Trigger
import FileGrid.Head.Registration
import FileGrid.Core.HashStore
import FileGrid.Metadata.RedisBackend
import FileGrid.Metadata.RedisRecreate
import FileGrid.Metadata.RedisFailover
import FileGrid.Head.Expiry
import FileGrid.Head.Committed
import FileGrid.Head.Placement
import FileGrid.Head.Vote
import FileGrid.Common.ConfigDocuments
import FileGrid.Common.ZnodeTree
import FileGrid.Common.Sessions
import FileGrid.Monitor.HeadServers
import FileGrid.Monitor.Probed
import FileGrid.Monitor.Stability
import FileGrid.Monitor.Election
import FileGrid.Failover.Targets
import FileGrid.Client.FileList
import FileGrid.Client.Transparency
import FileGrid.Head.Heartbeat
import FileGrid.Grid.Connection
import FileGrid.Client.Reassembly
import FileGrid.Core.FileSystem
import FileGrid.Storage.Tasks
import FileGrid.Storage.KeyValue
import FileGrid.Storage.OwnFiles
import FileGrid.Storage.Sequential
import FileGrid.Storage.Orphans
import FileGrid.Metadata.ReplicaCounts
import FileGrid.Metadata.ChunkLines
import FileGrid.Metadata.RedisCounts
import FileGrid.Metadata.RedisNames
import FileGrid.Monitor.Degraded
import FileGrid.Monitor.Debounce
import FileGrid.Core.Quoted
import FileGrid.Head.RegistrationBody
import FileGrid.Monitor.HealthChecker
import FileGrid.Monitor.Silence
import FileGrid.Common.Reactor
import FileGrid.Common.Coroutines
import FileGrid.Core.Threads
import FileGrid.Common.PoolProgress
import FileGrid.Core.Protobuf
import FileGrid.Grid.TransferFrame
import FileGrid.Storage.Separation
