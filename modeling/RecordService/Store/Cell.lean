import RecordService.Filter.Expression
import RecordService.Record.Operation
import RecordService.Store.Error

/-!
# One record in the store

A stored record may have expired without having been removed. All that a write decides, it decides
from the live record at its digest alone, if there is one: the error it is refused with, or its
answer and what becomes of the record (`Change`).

* `StoredRecord.isLive`, `remaining`: expiry.
* `Cell.put`, `Cell.delete`, `Cell.operate`: the writes.
* `Cell.applyJob`: what a background job does to a record.

Instants are milliseconds, counted from a fixed one.
-/

namespace RecordService

/-- A point in time, in milliseconds. -/
abbrev Instant := Int

/-- A record as it is stored. The key is kept unless the record was created under its digest. -/
structure StoredRecord where
  set : Option String
  key : Option Key
  bins : Bins
  generation : UInt32
  expiresAt : Option Instant
  deriving Repr

/-- Which records a write may find at its address, and whether their bins are kept. -/
inductive WriteMode
  /-- Create the record or change the given bins. -/
  | update
  | updateOnly
  /-- Create the record or replace all its bins. -/
  | replace
  | replaceOnly
  | createOnly
  deriving DecidableEq, Repr

/-- What a write asks of the record and sets on it besides bins. -/
structure WriteOptions where
  mode : WriteMode := .update
  /-- The generation that the record has to have. -/
  generation : Option UInt32 := none
  /-- Seconds until the record expires; none keeps what it has and zero is never. -/
  ttl : Option UInt32 := none
  deriving DecidableEq, Repr

/-- What a read asks for. -/
structure ReadOptions where
  /-- The bins to return; none returns all. -/
  bins : Option (List String) := none
  filter : Option Expression := none
  deriving Repr

/-- Which records of a namespace are meant: those of a set, or all, that pass a filter. -/
structure Selection where
  ns : String
  set : Option String := none
  filter : Option Expression := none
  deriving Repr

/-- What becomes of the record at a digest. -/
inductive Change
  | keep
  | remove
  | store (r : StoredRecord)
  deriving Repr

namespace StoredRecord

/-- Whether a record has not expired. -/
def isLive (now : Instant) (r : StoredRecord) : Bool :=
  match r.expiresAt with
  | some at_ => now < at_
  | none => true

/-- The whole seconds until a record expires, at least one. -/
def remaining (now : Instant) (r : StoredRecord) : Option UInt32 :=
  r.expiresAt.map fun at_ =>
    UInt32.ofNat (min (max 1 (Int.tdiv (at_ - now) 1000)) (2 ^ 32 - 1)).toNat

/-- Whether a record passes a filter. -/
def passes (filter : Option Expression) (r : StoredRecord) : Bool :=
  match filter with
  | some f => f.selects r.bins r.generation
  | none => true

/-- Whether a record is in a set; without a set, every record is. -/
def isIn (set : Option String) (r : StoredRecord) : Bool := set.isNone || r.set == set

/-- The record under the address that its own set and key give. -/
def toRecord (ns : String) (d : Digest) (bins : Bins) (now : Instant) (r : StoredRecord) : Record :=
  ⟨⟨ns, r.set, r.key.getD (.digest d)⟩, d, bins, r.generation, r.remaining now⟩

end StoredRecord

/-- The bins that are asked for. -/
def Bins.project (names : Option (List String)) (bins : Bins) : Bins :=
  match names with
  | none => bins
  | some names =>
    Ordered.ofEntries (names.filterMap fun n => (Ordered.find? n bins).map fun v => (n, v))

namespace Cell

/-- The key that is stored for a record. -/
def storedKey : Key → Option Key
  | .digest _ => none
  | key => some key

/-- When a written record expires. -/
def expiry (ttl : Option UInt32) (current : Option Instant) (now : Instant) : Option Instant :=
  match ttl with
  | none => current
  | some seconds => if seconds = 0 then none else some (now + 1000 * (seconds.toNat : Int))

/-- Refuses a write whose mode does not fit whether there is a record. -/
def checkMode (mode : WriteMode) (found : Bool) : Except StoreError Unit :=
  match mode, found with
  | .createOnly, true => .error .recordExists
  | .updateOnly, false | .replaceOnly, false => .error .recordNotFound
  | _, _ => .ok ()

/-- Refuses a write that expects another generation. -/
def checkGeneration (expected : Option UInt32) (actual : UInt32) : Except StoreError Unit :=
  match expected with
  | some g => if g = actual then .ok () else .error (.generationMismatch g actual)
  | none => .ok ()

/-- Whether a mode drops the bins that the record had. -/
def replaces : WriteMode → Bool
  | .replace | .replaceOnly | .createOnly => true
  | .update | .updateOnly => false

/-- Bins with other bins stored into them, null values removing theirs. -/
def merge (bins given : Bins) : Bins :=
  given.foldl (fun bins e => Operation.store e.1 e.2 bins) bins

/-- Refuses a put by the record that is there. A generation can only be expected of a record. -/
def checkPut (live : Option StoredRecord) (options : WriteOptions) : Except StoreError Unit :=
  (checkMode options.mode live.isSome).bind fun _ =>
    match live with
    | some r => checkGeneration options.generation r.generation
    | none =>
      match options.generation with
      | some g => .error (.generationMismatch g 0)
      | none => .ok ()

/-- The bins of a record after a put. -/
def putBins (live : Option StoredRecord) (mode : WriteMode) (given : Bins) : Bins :=
  match live with
  | some r => merge (if replaces mode then [] else r.bins) given
  | none => merge [] given

/-- Writes bins. A record without bins ceases to exist. -/
def put (now : Instant) (address : Address) (given : Bins) (options : WriteOptions)
    (live : Option StoredRecord) : Except StoreError (Unit × Change) :=
  (checkPut live options).map fun _ =>
    let bins := putBins live options.mode given
    if bins.isEmpty then ((), .remove)
    else
      let generation := match live with
        | some r => r.generation
        | none => 0
      let expiresAt := expiry options.ttl (live.bind (·.expiresAt)) now
      ((), .store ⟨address.set, storedKey address.key, bins, generation + 1, expiresAt⟩)

/-- Removes a record, and tells whether there was one. -/
def delete (options : WriteOptions) (live : Option StoredRecord) :
    Except StoreError (Bool × Change) :=
  match live with
  | none => .ok (false, .remove)
  | some r => (checkGeneration options.generation r.generation).map fun _ => (true, .remove)

/-- The record that operations start from where there is none. -/
def fresh (address : Address) : StoredRecord :=
  ⟨address.set, storedKey address.key, [], 0, none⟩

/-- Whether a list of operations can create a record: it writes, and does not touch. -/
def creates (ops : List Operation) : Bool :=
  ops.any (!·.isRead) && !ops.any fun
    | .touch => true
    | _ => false

/-- The error of operations that do not fit their bins. -/
def operationError (why : OperationFault) : StoreError := .parameter why.message

/-- Refuses operations by the record that is there. -/
def checkOperate (live : Option StoredRecord) (ops : List Operation) (options : WriteOptions) :
    Except StoreError Unit :=
  if live.isNone && !creates ops then .error .recordNotFound
  else
    (checkMode options.mode live.isSome).bind fun _ =>
      match live with
      | some r => checkGeneration options.generation r.generation
      | none => .ok ()

/-- The record after operations that changed it. -/
def modified (now : Instant) (options : WriteOptions) (bins : Bins) (r : StoredRecord) :
    StoredRecord :=
  { r with
    bins := bins
    generation := r.generation + 1
    expiresAt := expiry options.ttl r.expiresAt now }

/-- Applies operations. The answer holds what they reported, under the address that was asked for.
Operations that only report leave the record as it is. -/
def operate (now : Instant) (address : Address) (d : Digest) (ops : List Operation)
    (options : WriteOptions) (live : Option StoredRecord) : Except StoreError (Record × Change) :=
  (checkOperate live ops options).bind fun _ =>
    let before := live.getD (fresh address)
    match Operation.applyAll ops before.bins with
    | .error why => .error (operationError why)
    | .ok done =>
      let answer (r : StoredRecord) : Record :=
        { r.toRecord address.ns d done.results now with address := address }
      if !done.modified then .ok (answer before, .keep)
      else
        let after := modified now options done.bins before
        .ok (answer after, if after.bins.isEmpty then .remove else .store after)

/-- What operations of a background job do to a live record that passed its filter. The expiry
stays. -/
def applyJob (ops : List Operation) (r : StoredRecord) : Except StoreError Change :=
  match Operation.applyAll ops r.bins with
  | .error why => .error (operationError why)
  | .ok done =>
    .ok (if done.bins.isEmpty then .remove
      else .store { r with bins := done.bins, generation := r.generation + 1 })

end Cell
end RecordService
