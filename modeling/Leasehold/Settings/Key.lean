/-!
# Configuration keys

* `Settings.Key`: a key, `Settings.Key.text` its text.
* `Settings.Key.identity` and so on: the keys that are read.
* `Settings.Key.lease`, `Settings.Key.heartbeat`: the keys of an interval class.
-/

namespace Leasehold

namespace Settings

/-- A key, as the names that lead to its value. -/
structure Key where
  names : List String
  deriving Repr, DecidableEq

namespace Key

/-- The text of a key. -/
def text (key : Key) : String := ".".intercalate key.names

/-- The identity of this process. -/
def identity : Key := ⟨["clusterlock", "identity"]⟩

/-- The kind of store. -/
def storageMode : Key := ⟨["clusterlock", "storage", "mode"]⟩

/-- The lock to run under. -/
def jobName : Key := ⟨["clusterlock", "job", "name"]⟩

/-- The interval class of the lock. -/
def jobClass : Key := ⟨["clusterlock", "job", "class"]⟩

/-- The command to run. -/
def jobCommand : Key := ⟨["clusterlock", "job", "command"]⟩

/-- The database of the lock table. -/
def lockDatabase : Key := ⟨["clusterlock", "lock", "database"]⟩

/-- The lock table. -/
def lockTable : Key := ⟨["clusterlock", "lock", "table"]⟩

/-- How many heartbeats in a row may fail. -/
def maxFailures : Key := ⟨["clusterlock", "heartbeat", "max_failures"]⟩

/-- How to wait between attempts. -/
def retryStrategy : Key := ⟨["clusterlock", "retry", "strategy"]⟩

/-- The first ceiling of a delay in milliseconds. -/
def retryInitial : Key := ⟨["clusterlock", "retry", "initial_ms"]⟩

/-- The last ceiling of a delay in milliseconds. -/
def retryMax : Key := ⟨["clusterlock", "retry", "max_ms"]⟩

/-- The growth of the ceiling. -/
def retryMultiplier : Key := ⟨["clusterlock", "retry", "multiplier"]⟩

/-- How many lost leases may be queued. -/
def channelCapacity : Key := ⟨["clusterlock", "error_channel", "capacity"]⟩

/-- How many seconds a shutdown waits for the command. -/
def shutdownTimeout : Key := ⟨["clusterlock", "shutdown", "timeout_secs"]⟩

/-- The directory of the log files. -/
def logPath : Key := ⟨["clusterlock", "logs", "path"]⟩

/-- The least important entries that are logged. -/
def logLevel : Key := ⟨["clusterlock", "logs", "level"]⟩

/-- Whether to log to the console. -/
def logConsole : Key := ⟨["clusterlock", "logs", "console"]⟩

/-- Whether to log to files. -/
def logFile : Key := ⟨["clusterlock", "logs", "file"]⟩

/-- When log files change. -/
def logRotation : Key := ⟨["clusterlock", "logs", "rotation"]⟩

/-- The address of the database. -/
def databaseUrl : Key := ⟨["db", "url"]⟩

/-- The most connections of the pool. -/
def maxConnections : Key := ⟨["db", "max_connections"]⟩

/-- The fewest connections of the pool. -/
def minConnections : Key := ⟨["db", "min_connections"]⟩

/-- How many seconds a connection may take. -/
def connectTimeout : Key := ⟨["db", "connect_timeout_secs"]⟩

/-- How many seconds the pool may take. -/
def acquireTimeout : Key := ⟨["db", "acquire_timeout_secs"]⟩

/-- The lease of a class in seconds. -/
def lease (interval : String) : Key := ⟨["clusterlock", "interval", interval, "lease_secs"]⟩

/-- The heartbeat period of a class in seconds. -/
def heartbeat (interval : String) : Key :=
  ⟨["clusterlock", "interval", interval, "heartbeat_secs"]⟩

end Key

end Settings

end Leasehold
