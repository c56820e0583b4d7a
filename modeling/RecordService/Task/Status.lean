/-!
# The state of a task

A task follows a background job. It is `running` until the job is known to have ended, and then
`complete` or in `error` for good.
-/

namespace RecordService

/-- The state of a task. -/
inductive TaskStatus
  | running | complete | error
  deriving DecidableEq, Repr

namespace TaskStatus

/-- The name of a state. -/
def name : TaskStatus → String
  | running => "RUNNING"
  | complete => "COMPLETE"
  | error => "ERROR"

/-- Every state. -/
def all : List TaskStatus := [running, complete, error]

end TaskStatus
end RecordService
