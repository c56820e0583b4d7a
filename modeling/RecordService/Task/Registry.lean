import RecordService.Store.Job
import RecordService.Task.Id
import RecordService.Task.Status
import RecordService.Text.Quoted

/-!
# The task registry

A task follows one background job of the store. It is running until a poll finds that the job has
ended, and from then on keeps its outcome, until it is evicted: a finished task whose retention is
over is dropped by a sweep, or when its status is asked for. Running tasks are never evicted.

Every tracked task holds one of a bounded number of slots. A submission reserves its slot before
the store is asked to accept the job, and gives it back if the store refuses.

* `TaskRegistry.evict`, `reserve`, `release`, `insert`: the steps of a submission.
* `TaskRegistry.submit`, `status`, `sweep`: the calls.
* `TaskRegistry.poll`: one look at every running task's job.
-/

namespace RecordService

/-- Where a task stands. -/
inductive TaskState
  | running
  | complete (records : Nat) (finishedAt : Instant)
  | failed (reason : String) (finishedAt : Instant)
  deriving DecidableEq, Repr

namespace TaskState

/-- The name that is shown for a state. -/
def status : TaskState → TaskStatus
  | running => .running
  | complete .. => .complete
  | failed .. => .error

/-- When a task ended. -/
def finishedAt : TaskState → Option Instant
  | running => none
  | complete _ at_ | failed _ at_ => some at_

/-- The count of records that the job of a complete task changed. -/
def records : TaskState → Option Nat
  | complete n _ => some n
  | _ => none

/-- Why a task failed. -/
def reason : TaskState → Option String
  | failed why _ => some why
  | _ => none

end TaskState

/-- A tracked task. -/
structure Task where
  id : TaskId
  /-- The number of the job that the task follows. -/
  job : Nat
  ns : String
  set : Option String
  submittedAt : Instant
  state : TaskState
  deriving DecidableEq, Repr

namespace Task

/-- Whether a task is to be evicted. -/
def isExpired (now : Instant) (retention : Nat) (t : Task) : Bool :=
  match t.state.finishedAt with
  | some at_ => at_ + 1000 * (retention : Int) ≤ now
  | none => false

/-- The state that an answer of the store about its job moves a running task to. An answer that
leaves it open whether the job has ended changes nothing. -/
def stateAfter (now : Instant) : Except StoreError JobState → TaskState
  | .ok .inProgress => .running
  | .ok (.done n) => .complete n now
  | .ok (.failed reason) => .failed reason now
  | .error (.jobNotFound _) => .failed "job is no longer known to the store" now
  | .error _ => .running

/-- A task after a look at its job. -/
def poll (now : Instant) (jobStatus : Nat → Except StoreError JobState) (t : Task) : Task :=
  match t.state with
  | .running => { t with state := stateAfter now (jobStatus t.job) }
  | _ => t

end Task

/-- The limits of a registry. -/
structure TaskLimits where
  /-- Seconds for which a finished task is kept. -/
  retention : Nat := 3600
  /-- How many tasks may be tracked. -/
  maxTracked : Nat := 10000
  /-- Milliseconds between two polls. -/
  pollInterval : Nat := 100
  deriving DecidableEq, Repr

/-- Why the registry refuses a call. -/
inductive TaskError
  /-- There is no such task, or it has been evicted. -/
  | notFound (task : String)
  | invalidOperations (reason : String)
  | overloaded (reason : String)
  /-- The store refused the job. -/
  | rejected (why : StoreError)
  deriving DecidableEq, Repr

/-- The text of a task error. -/
def TaskError.message : TaskError → String
  | .notFound task => "task not found: " ++ task
  | .invalidOperations reason => "invalid operations: " ++ reason
  | .overloaded reason => "task registry overloaded: " ++ reason
  | .rejected why => "job rejected: " ++ why.message

/-- The tracked tasks, in the order in which they were accepted, and the slots in use. -/
structure TaskRegistry where
  limits : TaskLimits
  tasks : List Task := []
  reserved : Nat := 0
  deriving Repr

namespace TaskRegistry

/-! ## Steps -/

/-- Drops the tasks whose retention is over, and counts them. Their slots are still in use. -/
def evict (now : Instant) (r : TaskRegistry) : Nat × TaskRegistry :=
  let kept := r.tasks.filter (!·.isExpired now r.limits.retention)
  (r.tasks.length - kept.length, { r with tasks := kept })

/-- Gives slots back. -/
def release (slots : Nat) (r : TaskRegistry) : TaskRegistry :=
  { r with reserved := r.reserved - slots }

/-- Takes a slot. -/
def reserve (r : TaskRegistry) : Except TaskError TaskRegistry :=
  if r.reserved < r.limits.maxTracked then .ok { r with reserved := r.reserved + 1 }
  else .error (.overloaded (toString r.reserved ++ " tasks tracked"))

/-- Tracks a task. -/
def insert (t : Task) (r : TaskRegistry) : TaskRegistry := { r with tasks := r.tasks ++ [t] }

/-- The task of a name. -/
def find? (id : TaskId) (r : TaskRegistry) : Option Task := r.tasks.find? (·.id == id)

/-- Drops the task of a name. -/
def remove (id : TaskId) (r : TaskRegistry) : TaskRegistry :=
  { r with tasks := r.tasks.filter (·.id ≠ id) }

/-! ## Calls -/

/-- Evicts tasks and gives their slots back, and counts them. -/
def sweep (now : Instant) (r : TaskRegistry) : Nat × TaskRegistry :=
  let (gone, r) := r.evict now
  (gone, r.release gone)

/-- How an operation that only reports is shown; none if it writes. -/
def shownReport? : Operation → Option String
  | .read bin => some ("Read \x7b bin: " ++ Text.quoted bin ++ " \x7d")
  | .get => some "Get"
  | _ => none

/-- Refuses operations that no job can run: there has to be one, and none may only report. -/
def checkOperations (ops : List Operation) : Except TaskError Unit :=
  if ops.isEmpty then .error (.invalidOperations "opsList must not be empty")
  else
    match ops.findSome? shownReport? with
    | some shown =>
      .error (.invalidOperations
        ("read operation " ++ shown ++ " is not allowed in a background job"))
    | none => .ok ()

/-- The task of an accepted job. -/
def accepted (now : Instant) (fresh : TaskId) (job : Nat) (selection : Selection) : Task :=
  ⟨fresh, job, selection.ns, selection.set, now, .running⟩

/-- Has the store accept a job for a slot that has been reserved. -/
def hand (now : Instant) (fresh : TaskId) (selection : Selection) (ops : List Operation)
    (r : TaskRegistry) (s : Store) : Except TaskError Task × TaskRegistry × Store :=
  match s.startJob now ⟨selection, ops⟩ with
  | (.error e, s) => (.error (.rejected e), r.release 1, s)
  | (.ok job, s) =>
    let task := accepted now fresh job selection
    (.ok task, r.insert task, s)

/-- Submits a job that applies operations to the selected records, under a fresh name. -/
def submit (now : Instant) (fresh : TaskId) (selection : Selection) (ops : List Operation)
    (r : TaskRegistry) (s : Store) : Except TaskError Task × TaskRegistry × Store :=
  match checkOperations ops with
  | .error e => (.error e, r, s)
  | .ok () =>
    let (_, r) := r.sweep now
    match r.reserve with
    | .error e => (.error e, r, s)
    | .ok r => hand now fresh selection ops r s

/-- The task that a text names. An expired task is dropped and not found. -/
def status (now : Instant) (text : String) (r : TaskRegistry) :
    Except TaskError Task × TaskRegistry :=
  match (TaskId.ofText? text).bind r.find? with
  | none => (.error (.notFound text), r)
  | some t =>
    if t.isExpired now r.limits.retention then
      (.error (.notFound text), (r.remove t.id).release 1)
    else (.ok t, r)

/-- Looks at the job of every running task. -/
def poll (now : Instant) (jobStatus : Nat → Except StoreError JobState) (r : TaskRegistry) :
    TaskRegistry :=
  { r with tasks := r.tasks.map (·.poll now jobStatus) }

end TaskRegistry
end RecordService
