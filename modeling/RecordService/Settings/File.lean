import RecordService.Settings.Basic
import RecordService.Toml.Read

/-!
# Settings as text

Settings are written in TOML, in four sections. What is left out has its default and names that
are not known are not looked at. A section may also be an array of its first settings in order.

* `ServiceSettings.ofText`: the settings in a text.
* `ServiceSettings.defaultText`: a text of the defaults, with a comment on each.
-/

namespace RecordService

/-- Why there are no settings. -/
inductive SettingsError
  /-- The file could not be read or written. -/
  | file (path reason : String)
  /-- The text is not TOML, or a setting is of another type. -/
  | malformed (path : String)
  | invalid (why : SettingsFault)
  deriving DecidableEq, Repr

/-- The text of a settings error. Details of a malformed text are not told. -/
def SettingsError.message : SettingsError → String
  | .file path reason => "config file '" ++ path ++ "': " ++ reason
  | .malformed path => "failed to parse config file '" ++ path ++ "': <parser>"
  | .invalid why => "invalid config: " ++ why.message

namespace Toml

/-- The text of a node. -/
def Node.text? : Node → Option String
  | .string s => some s
  | _ => none

/-- The number of a node. It may not be negative. -/
def Node.natural? : Node → Option Nat
  | .integer n => if 0 ≤ n then some n.toNat else none
  | _ => none

/-- The texts in an array. -/
def Node.texts? : Node → Option (List String)
  | .array items => items.mapM Node.text?
  | _ => none

/-- The settings of a section by their names. A date is a section without known settings. -/
def Node.section? (names : List String) : Node → Option Table
  | .table _ entries => some entries
  | .array items => some (names.zip items)
  | .tables items => some (names.zip (items.map (.table .header)))
  | .moment => some []
  | _ => none

/-- A setting of a section, or its default. -/
def Table.setting {α : Type} (read : Node → Option α) (t : Table) (name : String) (default : α) :
    Option α :=
  match t.lookup name with
  | some node => read node
  | none => some default

end Toml

open Toml (Node Table)

namespace ServerSettings

/-- Reads the section of the listener. -/
def ofNode? (node : Node) : Option ServerSettings := do
  let t ← node.section? ["bind", "log_level"]
  let d : ServerSettings := {}
  pure ⟨← t.setting Node.text? "bind" d.bind, ← t.setting Node.text? "log_level" d.logLevel⟩

end ServerSettings

/-- Reads the section of scans. -/
def ScanLimits.ofNode? (node : Node) : Option ScanLimits := do
  let t ← node.section? ["default_max_records", "max_records_limit"]
  let d : ScanLimits := {}
  let number := t.setting Node.natural?
  pure ⟨← number "default_max_records" d.defaultSize, ← number "max_records_limit" d.maxSize⟩

/-- Reads the section of tasks. -/
def TaskLimits.ofNode? (node : Node) : Option TaskLimits := do
  let t ← node.section? ["retention_secs", "max_tracked_tasks", "poll_interval_ms"]
  let d : TaskLimits := {}
  let number := t.setting Node.natural?
  let retention ← number "retention_secs" d.retention
  let maxTracked ← number "max_tracked_tasks" d.maxTracked
  pure ⟨retention, maxTracked, ← number "poll_interval_ms" d.pollInterval⟩

/-- Reads the section of the store. -/
def StoreSettings.ofNode? (node : Node) : Option StoreSettings := do
  let t ← node.section?
    ["namespaces", "nodes", "job_workers", "max_queued_jobs", "job_retention_secs",
      "job_batch_size"]
  let d : StoreSettings := {}
  let number := t.setting Node.natural?
  let texts := t.setting Node.texts?
  let namespaces ← texts "namespaces" d.namespaces
  let nodes ← texts "nodes" d.nodes
  let jobWorkers ← number "job_workers" d.jobWorkers
  let maxQueuedJobs ← number "max_queued_jobs" d.maxQueuedJobs
  let jobRetention ← number "job_retention_secs" d.jobRetention
  let jobBatchSize ← number "job_batch_size" d.jobBatchSize
  pure { namespaces, nodes, jobWorkers, maxQueuedJobs, jobRetention, jobBatchSize }

namespace ServiceSettings

/-- The settings in a table. -/
def ofTable? (t : Table) : Option ServiceSettings := do
  let d : ServiceSettings := {}
  let server ← t.setting ServerSettings.ofNode? "server" d.server
  let scan ← t.setting ScanLimits.ofNode? "scan" d.scan
  let tasks ← t.setting TaskLimits.ofNode? "tasks" d.tasks
  pure { server, scan, tasks, store := ← t.setting StoreSettings.ofNode? "store" d.store }

/-- The settings in the text of a file. -/
def ofText (path text : String) : Except SettingsError ServiceSettings :=
  match (Toml.read? text).bind ofTable? with
  | none => .error (.malformed path)
  | some s => (s.check.mapError .invalid).map fun _ => s

/-- The name of the file with the settings. -/
def fileName : String := "recordgate.toml"

/-- A text of the defaults. -/
def defaultText : String :=
  "# Recordgate configuration\n" ++
  "\n" ++
  "[server]\n" ++
  "# Address the HTTP listener binds to\n" ++
  "bind = \"127.0.0.1:8080\"\n" ++
  "# trace | debug | info | warn | error\n" ++
  "log_level = \"info\"\n" ++
  "\n" ++
  "[scan]\n" ++
  "# Page size when a request omits maxRecords\n" ++
  "default_max_records = 100\n" ++
  "# Largest page size a request may ask for\n" ++
  "max_records_limit = 10000\n" ++
  "\n" ++
  "[tasks]\n" ++
  "# Seconds a finished task stays queryable (running tasks are never evicted)\n" ++
  "retention_secs = 3600\n" ++
  "# Tracked tasks, running and finished, before submissions are refused\n" ++
  "max_tracked_tasks = 10000\n" ++
  "# Milliseconds between polls of running jobs\n" ++
  "poll_interval_ms = 100\n" ++
  "\n" ++
  "[store]\n" ++
  "namespaces = [\"test\"]\n" ++
  "nodes = [\"node-1\"]\n" ++
  "# Threads running background jobs\n" ++
  "job_workers = 2\n" ++
  "# Accepted jobs allowed to wait for a thread before new ones are refused\n" ++
  "max_queued_jobs = 256\n" ++
  "# Seconds a finished job's outcome stays queryable in the store\n" ++
  "job_retention_secs = 600\n" ++
  "# Records a job updates per namespace lock acquisition\n" ++
  "job_batch_size = 128\n"

end ServiceSettings
end RecordService
