import RecordService.Store.Cell

/-!
# The store

A store keeps its records in namespaces, each a map from digests to records in digest order. It
has nodes, which can be down, and a fault can be put in its way.

* `Store.access`: whether the store answers at all.
* `Store.get`, `exists_`, `put`, `delete`, `operate`: calls on one record.
* `Store.write`: what the three writes have in common. With a fault that leaves writes in doubt the
  write is applied and a timeout reported.
-/

namespace RecordService

/-- What a store is built from. -/
structure StoreSettings where
  namespaces : List String := ["test"]
  nodes : List String := ["node-1"]
  /-- How many jobs run at a time. -/
  jobWorkers : Nat := 2
  /-- How many more jobs may wait. -/
  maxQueuedJobs : Nat := 256
  /-- Seconds for which the outcome of a job is kept. -/
  jobRetention : Nat := 600
  /-- How many records a job works on in one go. -/
  jobBatchSize : Nat := 128
  deriving DecidableEq, Repr

/-- What stands in the way of calls. -/
inductive StoreFault
  | unavailable
  | timeout (inDoubt : Bool)
  deriving DecidableEq, Repr

/-- The records of a namespace by their digests, in digest order. -/
abbrev Records := List (Digest × StoredRecord)

/-- What a background job is to do: apply operations to the selected records. -/
structure JobRequest where
  selection : Selection
  ops : List Operation
  deriving Repr

/-- The state of a background job. -/
inductive JobState
  | inProgress
  | done (records : Nat)
  | failed (reason : String)
  deriving DecidableEq, Repr

/-- What is known of a job, and since when it has ended. -/
structure JobEntry where
  state : JobState
  finishedAt : Option Instant
  deriving DecidableEq, Repr

/-- An accepted job. -/
structure Job where
  id : Nat
  request : JobRequest
  deriving Repr

/-- A job that a worker has taken. Once it has looked for its records, the digests still to be
worked on are known. -/
structure ActiveJob where
  job : Job
  left : Option (List Digest) := none
  modified : Nat := 0
  deriving Repr

/-- The workers and the jobs in their hands and before them. -/
structure JobPool where
  queue : List Job := []
  active : List ActiveJob := []
  completed : Nat := 0
  /-- How many workers have been started. -/
  workers : Nat := 0
  deriving Repr

/-- A store. -/
structure Store where
  settings : StoreSettings
  spaces : List (String × Records)
  down : List String := []
  fault : Option StoreFault := none
  jobs : List (Nat × JobEntry) := []
  nextJob : Nat := 1
  paused : Bool := false
  pool : JobPool := {}
  deriving Repr

namespace Records

/-- The live record at a digest. -/
def live? (now : Instant) (d : Digest) (rs : Records) : Option StoredRecord :=
  (Ordered.find? d rs).filter (·.isLive now)

/-- The live records. -/
def live (now : Instant) (rs : Records) : Records := rs.filter (·.2.isLive now)

/-- Changes the record at a digest. -/
def change (d : Digest) (rs : Records) : Change → Records
  | .keep => rs
  | .remove => Ordered.erase d rs
  | .store r => Ordered.insert d r rs

end Records

namespace Store

/-- A store without records. -/
def empty (settings : StoreSettings) : Store :=
  { settings, spaces := Ordered.ofEntries (settings.namespaces.map fun ns => (ns, [])) }

/-- The records of a namespace. -/
def space? (s : Store) (ns : String) : Option Records := Ordered.find? ns s.spaces

/-- Replaces the records of a namespace. -/
def setSpace (s : Store) (ns : String) (rs : Records) : Store :=
  { s with spaces := Ordered.insert ns rs s.spaces }

/-- Whether a node is up. -/
def isUp (s : Store) (node : String) : Bool := !s.down.contains node

/-- Takes a node up or down. -/
def setNode (s : Store) (node : String) (up : Bool) : Store :=
  let others := s.down.filter (· ≠ node)
  { s with down := if up then others else node :: others }

/-- Lets a call through or refuses it. The answer tells whether a write will be in doubt. -/
def access (s : Store) : Except StoreError Bool :=
  if !s.settings.nodes.isEmpty && !s.settings.nodes.any s.isUp then
    .error (.unavailable "no cluster node reachable")
  else
    match s.fault with
    | none => .ok false
    | some .unavailable => .error (.unavailable "cluster unreachable")
    | some (.timeout false) => .error (.timeout false)
    | some (.timeout true) => .ok true

/-- Lets a read through or refuses it. A read is never in doubt. -/
def accessRead (s : Store) : Except StoreError Unit :=
  s.access.bind fun doubt => if doubt then .error (.timeout false) else .ok ()

/-- The records of a namespace, or the error that there is none. -/
def space (s : Store) (ns : String) : Except StoreError Records :=
  match s.space? ns with
  | some rs => .ok rs
  | none => .error (.namespaceNotFound ns)

/-! ## Reads -/

/-- The record at an address. -/
def get (s : Store) (now : Instant) (address : Address) (options : ReadOptions) :
    Except StoreError Record := do
  s.accessRead
  let rs ← s.space address.ns
  match rs.live? now address.digest with
  | none => .error .recordNotFound
  | some r =>
    if !r.passes options.filter then .error .filteredOut
    else
      let bins := r.bins.project options.bins
      pure { r.toRecord address.ns address.digest bins now with address := address }

/-- Whether there is a record at an address that passes a filter. -/
def exists_ (s : Store) (now : Instant) (address : Address) (filter : Option Expression) :
    Except StoreError Bool := do
  s.accessRead
  let rs ← s.space address.ns
  pure ((rs.live? now address.digest).any (·.passes filter))

/-- The sum of counts. -/
def total (counts : List Nat) : Nat := counts.foldl (· + ·) 0

/-- The count of live records of a namespace. -/
def count (s : Store) (now : Instant) (ns : String) : Nat :=
  match s.space? ns with
  | some rs => (rs.live now).length
  | none => 0

/-! ## Writes -/

/-- Decides on a write by the live record at its address, and applies what was decided. -/
def write {α : Type} (s : Store) (now : Instant) (address : Address)
    (decide : Option StoredRecord → Except StoreError (α × Change)) :
    Except StoreError α × Store :=
  match s.access with
  | .error e => (.error e, s)
  | .ok doubt =>
    match s.space address.ns with
    | .error e => (.error e, s)
    | .ok rs =>
      match decide (rs.live? now address.digest) with
      | .error e => (.error e, s)
      | .ok (a, change) =>
        (if doubt then .error (.timeout true) else .ok a,
          s.setSpace address.ns (rs.change address.digest change))

/-- Writes bins to the record at an address. -/
def put (s : Store) (now : Instant) (address : Address) (bins : Bins) (options : WriteOptions) :
    Except StoreError Unit × Store :=
  s.write now address (Cell.put now address bins options)

/-- Removes the record at an address, and tells whether there was one. -/
def delete (s : Store) (now : Instant) (address : Address) (options : WriteOptions) :
    Except StoreError Bool × Store :=
  s.write now address (Cell.delete options)

/-- Applies operations to the record at an address. -/
def operate (s : Store) (now : Instant) (address : Address) (ops : List Operation)
    (options : WriteOptions) : Except StoreError Record × Store :=
  if ops.isEmpty then (.error (.parameter "operation list is empty"), s)
  else s.write now address (Cell.operate now address address.digest ops options)

end Store
end RecordService
