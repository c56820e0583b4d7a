import RecordService.Store.Basic

/-!
# Background jobs

A job applies write operations to selected records. Accepted jobs wait in a
queue of bounded length for one of a fixed number of workers, which takes them in order. A worker
first looks for the digests of the live records of its set, and then works through them batch by
batch; between two batches anything else may happen to the store. A record is changed only if at
that time it is live and passes the filter. The first operation that does not fit ends the job.

* `Store.startJob`: accepts or refuses a job.
* `Store.dispatch`, `Store.stepJob`: the steps of the workers.
* `Store.settle`: lets the workers run until no job is left.
* `Store.jobStatus`: what is known of a job. Outcomes are forgotten when a job is accepted after
  their time.
-/

namespace RecordService

/-- Whether a job is still to be known when another one is accepted. -/
def JobEntry.isKept (now : Instant) (retention : Nat) (e : JobEntry) : Bool :=
  match e.finishedAt with
  | some at_ => now < at_ + 1000 * (retention : Int)
  | none => true

namespace JobRequest

/-- The digests of the live records of a job's set, in order. -/
def candidates (now : Instant) (request : JobRequest) (rs : Records) : List Digest :=
  (rs.filter fun e => e.2.isLive now && e.2.isIn request.selection.set).map (·.1)

/-- Applies a job's operations to the record at a digest if it is live and passes the filter, and
tells whether it did. -/
def visit (now : Instant) (request : JobRequest) (d : Digest) (rs : Records) :
    Except StoreError (Records × Bool) :=
  match rs.live? now d with
  | none => .ok (rs, false)
  | some r =>
    if r.passes request.selection.filter then
      (Cell.applyJob request.ops r).map fun change => (rs.change d change, true)
    else .ok (rs, false)

/-- Visits digests in order up to the first error, and counts the records that were changed. What
was changed before an error stays changed. -/
def visitAll (now : Instant) (request : JobRequest) :
    List Digest → Records → Nat → Records × Except StoreError Nat
  | [], rs, changed => (rs, .ok changed)
  | d :: rest, rs, changed =>
    match request.visit now d rs with
    | .error e => (rs, .error e)
    | .ok (rs, hit) => visitAll now request rest rs (if hit then changed + 1 else changed)

end JobRequest

namespace JobPool

/-- The count of jobs that wait or run. -/
def unfinished (p : JobPool) : Nat := p.queue.length + p.active.length

/-- Gives waiting jobs to the workers that have none. -/
def dispatch (p : JobPool) : JobPool :=
  let free := p.workers - p.active.length
  { p with
    queue := p.queue.drop free
    active := p.active ++ (p.queue.take free).map fun job => { job } }

/-- Replaces what is known of a running job. -/
def update (a : ActiveJob) (p : JobPool) : JobPool :=
  { p with active := p.active.map fun b => if b.job.id = a.job.id then a else b }

/-- Frees the worker of a job. -/
def release (id : Nat) (p : JobPool) : JobPool :=
  { p with active := p.active.filter (·.job.id ≠ id), completed := p.completed + 1 }

end JobPool

namespace Store

/-- How many workers a store has once it has been given a job. -/
def workerCount (s : Store) : Nat := max s.settings.jobWorkers 1

/-- How many digests a worker goes through before it lets others at the records. -/
def batchSize (s : Store) : Nat := max s.settings.jobBatchSize 1

/-- Forgets the outcomes whose time is over. -/
def sweepJobs (now : Instant) (s : Store) : Store :=
  { s with jobs := s.jobs.filter (·.2.isKept now s.settings.jobRetention) }

/-- Refuses a job by its request. -/
def checkJob (s : Store) (request : JobRequest) : Except StoreError Unit := do
  s.accessRead
  let _ ← s.space request.selection.ns
  if request.ops.isEmpty then
    .error (.parameter "background job needs at least one operation")
  else if request.ops.any (·.isRead) then
    .error (.parameter "background jobs accept write operations only")
  else .ok ()

/-- Starts the workers and uses up a job number. -/
def prepareJob (now : Instant) (s : Store) : Store :=
  let s := s.sweepJobs now
  { s with nextJob := s.nextJob + 1, pool := { s.pool with workers := s.workerCount } }

/-- Accepts a job, which then waits for a worker, and answers its number. A full queue refuses
it; the number is used up all the same. -/
def startJob (now : Instant) (request : JobRequest) (s : Store) : Except StoreError Nat × Store :=
  match s.checkJob request with
  | .error e => (.error e, s)
  | .ok () =>
    let id := s.nextJob
    let s := s.prepareJob now
    if s.pool.queue.length < s.settings.maxQueuedJobs then
      (.ok id,
        { s with
          jobs := Ordered.insert id ⟨.inProgress, none⟩ s.jobs
          pool := { s.pool with queue := s.pool.queue ++ [⟨id, request⟩] } })
    else (.error (.unavailable "background job queue is full"), s)

/-- What is known of a job. -/
def jobStatus (s : Store) (id : Nat) : Except StoreError JobState := do
  s.accessRead
  match Ordered.find? id s.jobs with
  | some e => .ok e.state
  | none => .error (.jobNotFound id)

/-! ## Workers -/

/-- Gives waiting jobs to free workers. -/
def dispatch (s : Store) : Store := { s with pool := s.pool.dispatch }

/-- Ends a job with its outcome. To note the outcome, to count the job as active no more and to
count it as completed are one step. A worker may take them one after the other, and then be seen
between them: with an outcome while its job is still active, or with a job that is neither active
nor completed. -/
def endJob (now : Instant) (id : Nat) (outcome : JobState) (s : Store) : Store :=
  { s with
    jobs := Ordered.insert id ⟨outcome, some now⟩ s.jobs
    pool := s.pool.release id }

/-- Notes how far a running job has come. -/
def noteJob (a : ActiveJob) (s : Store) : Store := { s with pool := s.pool.update a }

/-- Works on the next batch of a job. To read the clock and to take hold of the records are one
step, and the batch is done before anything else happens. A worker that reads the clock first and
then has to wait for the records judges by that earlier instant which of them have expired. -/
def stepBatch (now : Instant) (a : ActiveJob) (left : List Digest) (rs : Records) (s : Store) :
    Store :=
  let request := a.job.request
  let (rs, outcome) := request.visitAll now (left.take s.batchSize) rs 0
  let s := s.setSpace request.selection.ns rs
  match outcome with
  | .error e => s.endJob now a.job.id (.failed e.message)
  | .ok changed =>
    s.noteJob { a with left := some (left.drop s.batchSize), modified := a.modified + changed }

/-- One step of the worker of a job: it looks for the digests, works on a batch, or reports that
none are left. Its look, like a batch (`stepBatch`), reads the clock and the records in one step. -/
def stepJob (now : Instant) (id : Nat) (s : Store) : Store :=
  match s.pool.active.find? (·.job.id == id) with
  | none => s
  | some a =>
    match s.space a.job.request.selection.ns with
    | .error e => s.endJob now id (.failed e.message)
    | .ok rs =>
      match a.left with
      | none => s.noteJob { a with left := some (a.job.request.candidates now rs) }
      | some [] => s.endJob now id (.done a.modified)
      | some (d :: rest) => s.stepBatch now a (d :: rest) rs

/-- A count of steps that is enough for all jobs: each looks for its digests once, goes through at
most as many batches as there are records or digests left, and reports once. -/
def stepsLeft (s : Store) : Nat :=
  let records := total (s.spaces.map (·.2.length))
  let found := total (s.pool.active.map fun a => (a.left.getD []).length)
  s.pool.unfinished * (records + 2) + found

/-- Takes steps, always of the job that has been running for longest. -/
def steps (now : Instant) : Nat → Store → Store
  | 0, s => s
  | n + 1, s =>
    match s.dispatch.pool.active with
    | [] => s.dispatch
    | a :: _ => steps now n (s.dispatch.stepJob now a.job.id)

/-- Lets the workers run until no job is left. While jobs are paused they only take them. -/
def settle (now : Instant) (s : Store) : Store :=
  if s.paused then s.dispatch else steps now s.stepsLeft s

end Store
end RecordService
