import Leasehold.Command.Exit
import Leasehold.Command.Job
import Leasehold.Command.Process
import Leasehold.Data.Condition
import Leasehold.Data.Folder
import Leasehold.Data.OrderedMap
import Leasehold.Data.Record
import Leasehold.Data.Space
import Leasehold.Data.Value
import Leasehold.Json.Basic
import Leasehold.Json.Parser
import Leasehold.Lock.Attempt
import Leasehold.Lock.Error
import Leasehold.Lock.Name
import Leasehold.Lock.Policy
import Leasehold.Lock.Retry
import Leasehold.Lock.Row
import Leasehold.Log.Entry
import Leasehold.Log.Filter
import Leasehold.Log.Setup
import Leasehold.Log.Sink
import Leasehold.Main
import Leasehold.Manager.Basic
import Leasehold.Manager.Cycle
import Leasehold.Manager.Metrics
import Leasehold.Manager.Options
import Leasehold.Manager.Outbox
import Leasehold.Number.Binary64
import Leasehold.Number.Decimal
import Leasehold.Number.Word
import Leasehold.Service.Launch
import Leasehold.Service.Stop
import Leasehold.Settings.Basic
import Leasehold.Settings.Environment
import Leasehold.Settings.File
import Leasehold.Settings.Flags
import Leasehold.Settings.Key
import Leasehold.Settings.Path
import Leasehold.Settings.Reading
import Leasehold.Settings.Storage
import Leasehold.Settings.Value
import Leasehold.Signal.Broadcast
import Leasehold.Signal.Cancellation
import Leasehold.Signal.Deadline
import Leasehold.Simulation.Operator
import Leasehold.Simulation.Program
import Leasehold.Simulation.Race
import Leasehold.Simulation.Shell.Run
import Leasehold.Simulation.Shell.Script
import Leasehold.Simulation.Site
import Leasehold.Simulation.World
import Leasehold.Sql.Address
import Leasehold.Sql.Script
import Leasehold.Sql.Sqlite
import Leasehold.Sql.Statement
import Leasehold.Sql.Store
import Leasehold.Store.Backend
import Leasehold.Store.Call
import Leasehold.Store.Memory
import Leasehold.Text.Quoted
import Leasehold.Time.Calendar
import Leasehold.Time.Instant
import Leasehold.Time.Span
import Leasehold.Time.Timestamp
import Leasehold.Wire
import Leasehold.Yaml.Node
import Leasehold.Yaml.Token
import Leasehold.Proofs.Data.OrderedMap
import Leasehold.Proofs.Data.Value
import Leasehold.Proofs.Store.Representation
import Leasehold.Proofs.Time.Calendar
import Leasehold.Proofs.Time.Timestamp
import Leasehold.Proofs.Sql.LockTable
import Leasehold.Proofs.Store.Agreement
import Leasehold.Proofs.Lock.RowStep
import Leasehold.Proofs.Lock.Contest
import Leasehold.Proofs.Store.Workshop
import Leasehold.Proofs.Lock.Fencing
import Leasehold.Proofs.Time.Elapsed
import Leasehold.Proofs.Lock.Takeover
import Leasehold.Proofs.Lock.History
import Leasehold.Proofs.Lock.Ownership
import Leasehold.Proofs.Lock.Contention
import Leasehold.Proofs.Manager.Coherence
import Leasehold.Proofs.Manager.Session
import Leasehold.Proofs.Manager.Lifecycle
import Leasehold.Proofs.Manager.Shutdown
import Leasehold.Proofs.Manager.Effects
import Leasehold.Proofs.Manager.Balance
import Leasehold.Proofs.Manager.Outbox
import Leasehold.Proofs.Manager.Losses
import Leasehold.Proofs.Manager.Drain
import Leasehold.Proofs.Manager.Closing
import Leasehold.Proofs.Fleet.Basic
import Leasehold.Proofs.Fleet.Change
import Leasehold.Proofs.Fleet.Pace
import Leasehold.Proofs.Fleet.Exclusion
import Leasehold.Proofs.Fleet.Margin
import Leasehold.Proofs.Data.Selection
import Leasehold.Proofs.Store.Confinement
import Leasehold.Proofs.Lock.Separation
import Leasehold.Proofs.Manager.Bystanders
import Leasehold.Proofs.Manager.Renumber
import Leasehold.Proofs.Manager.Mirror
import Leasehold.Proofs.Manager.Separation
import Leasehold.Proofs.Fleet.FreeTime
import Leasehold.Proofs.Fleet.Rivalry
import Leasehold.Proofs.Service.Departure
import Leasehold.Proofs.Store.Isolation
import Leasehold.Proofs.Lock.Solo
import Leasehold.Proofs.Signal.Hearing
import Leasehold.Proofs.Settings.Writing
import Leasehold.Proofs.Settings.Naming
import Leasehold.Proofs.Settings.Standards
import Leasehold.Proofs.Settings.Precedence
import Leasehold.Proofs.Text.ByteOrder
import Leasehold.Proofs.Store.KeyedUpdate
import Leasehold.Proofs.Sql.Reading
import Leasehold.Proofs.Sql.Parameters
import Leasehold.Proofs.Manager.Punctual
import Leasehold.Proofs.Manager.FailureRow
import Leasehold.Proofs.Manager.Supervision
import Leasehold.Proofs.Lock.Delays
import Leasehold.Proofs.Manager.Pursuit
import Leasehold.Proofs.Manager.Acquisition
import Leasehold.Proofs.Fleet.Waiter
import Leasehold.Proofs.Fleet.Handoff
import Leasehold.Proofs.Fleet.Succession
import Leasehold.Proofs.Sql.Addressing
import Leasehold.Proofs.Store.Traceless
import Leasehold.Proofs.Lock.Expiry
import Leasehold.Proofs.Lock.Offers
import Leasehold.Proofs.Settings.Leases
import Leasehold.Proofs.Settings.Invalid
import Leasehold.Proofs.Number.Rounding
import Leasehold.Proofs.Lock.Ceilings
import Leasehold.Proofs.Lock.Pauses
