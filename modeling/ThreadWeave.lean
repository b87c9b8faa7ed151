import ThreadWeave.Runs.Machine
import ThreadWeave.Protocols
import ThreadWeave.Worker.Pending
import ThreadWeave.Worker.Sessions
import ThreadWeave.Worker.Lifecycle
import ThreadWeave.Worker.HandOut
import ThreadWeave.Worker.Service
import ThreadWeave.Worker.Wakeups
import ThreadWeave.Registry
import ThreadWeave.Registry.History
import ThreadWeave.Redis.Keyspace
import ThreadWeave.Redis.Scan
import ThreadWeave.Redis.Database
import ThreadWeave.Registry.Redis
import ThreadWeave.Registry.Listing
import ThreadWeave.Registry.Expiry
import ThreadWeave.Registry.Service
import ThreadWeave.Membership
import ThreadWeave.Config.Memory
import ThreadWeave.Startup
import ThreadWeave.Keys
import ThreadWeave.Shared
import ThreadWeave.Rust.Decimal
import ThreadWeave.Rust.Str
import ThreadWeave.Rust.Notify
import ThreadWeave.Rust.Mpsc
import ThreadWeave.Core.RedisStore
import ThreadWeave.Core.Reports
import ThreadWeave.Core.Outcomes
import ThreadWeave.Core.Agreement
import ThreadWeave.Core.Serial
import ThreadWeave.Core.Once
import ThreadWeave.Core.Retry
import ThreadWeave.Core.Submission
import ThreadWeave.Core.Placement
import ThreadWeave.Core.Accounting
import ThreadWeave.Core.Client
import ThreadWeave.Worker.Reports
import ThreadWeave.Pipeline
import ThreadWeave.Delivery
import ThreadWeave.System
import ThreadWeave.Core.Labels
import ThreadWeave.Loops
import ThreadWeave.Worker.Queue
import ThreadWeave.Worker.Streams
import ThreadWeave.Worker.Commands
import ThreadWeave.Results
import ThreadWeave.Runs.Sequences
import ThreadWeave.Order
import ThreadWeave.Cluster
import ThreadWeave.Crashes
import ThreadWeave.Progress
