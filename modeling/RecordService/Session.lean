import RecordService.Http.Handler

/-!
# A gateway under a clock

A `Session` is a gateway with a clock that is set by hand. Whatever is done to it, background work
then comes to rest before anything else is done (`Session.settle`): the jobs run to their end unless
they are paused, and the task registry looks at the jobs of its running tasks unless it has been
shut down. Tasks are named in the order in which they are accepted.
-/

namespace RecordService

/-- The name of the task that is accepted as the one of a number. -/
def TaskId.ofOrder (n : Nat) : TaskId := ⟨BitVec.ofNat 128 (0x4000800 * 16 ^ 13 + n)⟩

/-- A gateway with its clock. -/
structure Session where
  gateway : Gateway
  /-- The time, at first the start of the year 2024. -/
  now : Instant := 1704067200000
  /-- Whether the registry still looks at jobs. -/
  polling : Bool := true
  /-- How many tasks have been accepted. -/
  accepted : Nat := 0
  /-- What the registry is told of some jobs instead of what the store knows. -/
  told : List (Nat × Except StoreError JobState) := []

namespace Session

/-- The session of a new gateway. -/
def start (gateway : Gateway) : Session := { gateway }

/-- What the registry is told of a job. -/
def jobStatus (s : Session) (job : Nat) : Except StoreError JobState :=
  (s.told.lookup job).getD (s.gateway.store.jobStatus job)

/-- Changes the store. -/
def mapStore (f : Store → Store) (s : Session) : Session :=
  { s with gateway := { s.gateway with store := f s.gateway.store } }

/-- Changes the task registry. -/
def mapTasks (f : TaskRegistry → TaskRegistry) (s : Session) : Session :=
  { s with gateway := { s.gateway with tasks := f s.gateway.tasks } }

/-- Brings background work to rest. -/
def settle (s : Session) : Session :=
  let s := s.mapStore (·.settle s.now)
  if s.polling then s.mapTasks (·.poll s.now s.jobStatus) else s

/-- The name of the next task. -/
def fresh (s : Session) : TaskId := .ofOrder (s.accepted + 1)

/-- Puts a gateway in place of the one before, which may have accepted the next task. -/
def withGateway (s : Session) (g : Gateway) : Session :=
  let taken := (g.tasks.find? s.fresh).isSome
  { s with gateway := g, accepted := if taken then s.accepted + 1 else s.accepted }

/-- Answers a request. -/
def handle (s : Session) (r : Http.Request) : Http.Response × Session :=
  let (response, g) := Http.handle s.gateway s.now s.fresh r
  (response, s.withGateway g)

/-- Submits a task. -/
def submit (s : Session) (selection : Selection) (ops : List Operation) :
    Except GatewayError Task × Session :=
  let (task, g) := s.gateway.submit s.now s.fresh selection ops
  (task, s.withGateway g)

/-- From now on tells the registry an answer about the job of a task, or again what the store
knows. -/
def tell (task : TaskId) (answer : Option (Nat → Except StoreError JobState)) (s : Session) :
    Session :=
  match s.gateway.tasks.find? task with
  | none => s
  | some t =>
    let others := s.told.filter (·.1 ≠ t.job)
    { s with told := match answer with
        | some f => (t.job, f t.job) :: others
        | none => others }

end Session
end RecordService
