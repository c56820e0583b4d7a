import RecordService.Gateway.Basic
import RecordService.Text.Whole

/-!
# Settings of the service

Every setting has a default. Settings that can be read may still not work together
(`ServiceSettings.check`): a page must have room for a record, a registry for a task, and the store
needs a worker, a batch and a node.
-/

namespace RecordService

/-- How much the service logs. -/
inductive LogLevel
  | error | warn | info | debug | trace
  deriving DecidableEq, Repr

namespace LogLevel

/-- The levels from the one that logs least to the one that logs most. -/
def all : List LogLevel := [error, warn, info, debug, trace]

/-- The name of a level. -/
def name : LogLevel → String
  | error => "ERROR"
  | warn => "WARN"
  | info => "INFO"
  | debug => "DEBUG"
  | trace => "TRACE"

/-- The level that a text names: by its place among the levels, counted from one, or by its name
in any ASCII case. -/
def ofText? (s : String) : Option LogLevel :=
  match Text.natural? (2 ^ 64) s with
  | some 0 => none
  | some (n + 1) => all[n]?
  | none => all.find? fun l => l.name == s.toUpper

end LogLevel

/-- The settings of the listener and of logging. -/
structure ServerSettings where
  /-- The address to listen at. -/
  bind : String := "127.0.0.1:8080"
  logLevel : String := "info"
  deriving DecidableEq, Repr

/-- The settings of the service. -/
structure ServiceSettings where
  server : ServerSettings := {}
  scan : ScanLimits := {}
  tasks : TaskLimits := {}
  store : StoreSettings := {}
  deriving DecidableEq, Repr

/-- Why settings do not work. -/
inductive SettingsFault
  | noPageSize
  | pageSizeBeyondLimit
  | noTasks
  | noWorkers
  | noBatchSize
  | noNodes
  | unknownLogLevel
  deriving DecidableEq, Repr

/-- The text of a fault in the settings. -/
def SettingsFault.message : SettingsFault → String
  | .noPageSize => "scan.default_max_records must be positive"
  | .pageSizeBeyondLimit => "scan.default_max_records exceeds scan.max_records_limit"
  | .noTasks => "tasks.max_tracked_tasks must be positive"
  | .noWorkers => "store.job_workers must be positive"
  | .noBatchSize => "store.job_batch_size must be positive"
  | .noNodes => "store.nodes must name at least one node"
  | .unknownLogLevel => "server.log_level must be trace, debug, info, warn or error"

namespace ServiceSettings

/-- The first fault of settings. -/
def fault? (s : ServiceSettings) : Option SettingsFault :=
  if s.scan.defaultSize = 0 then some .noPageSize
  else if s.scan.maxSize < s.scan.defaultSize then some .pageSizeBeyondLimit
  else if s.tasks.maxTracked = 0 then some .noTasks
  else if s.store.jobWorkers = 0 then some .noWorkers
  else if s.store.jobBatchSize = 0 then some .noBatchSize
  else if s.store.nodes.isEmpty then some .noNodes
  else if (LogLevel.ofText? s.server.logLevel).isNone then some .unknownLogLevel
  else none

/-- Refuses settings that do not work. -/
def check (s : ServiceSettings) : Except SettingsFault Unit :=
  match s.fault? with
  | some why => .error why
  | none => .ok ()

/-- How much is logged; a level that is none counts as `info`. -/
def logLevel (s : ServiceSettings) : LogLevel := (LogLevel.ofText? s.server.logLevel).getD .info

/-- The gateway that the settings describe, before a store without records. -/
def gateway (s : ServiceSettings) : Gateway := .ofSettings s.store s.scan s.tasks

end ServiceSettings
end RecordService
