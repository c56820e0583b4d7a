import RecordService.Payload.Operation
import RecordService.Task.Status

/-!
# Response bodies

The bodies that requests are answered with. Each has a document, the same in both wire formats but
for the values in it, and can be read back from it. A body is a map of its fields; it is also read
from a list of them in order.
-/

namespace RecordService

/-- Reads an optional text. -/
def optionalText (depth : Nat) : Document → Except Fault (Option String) :=
  Document.asOption (Document.asText depth)

/-- The document of something that may be absent. -/
def optionalDocument {α : Type} (write : α → Document) : Option α → Document
  | some a => write a
  | none => .null

/-! ## Records -/

/-- The key of a record in a response. The key value is null if only the digest is known. -/
structure KeyBody where
  ns : String
  setName : Option String
  userKey : Value
  digest : String
  deriving Repr

namespace KeyBody

/-- The document of the body. -/
def toDocument (codec : Codec) (b : KeyBody) : Document :=
  .object [("namespace", .text b.ns), ("setName", optionalDocument .text b.setName),
    ("userKey", b.userKey.toDocument codec), ("digest", .text b.digest)]

/-- The fields found so far. -/
structure Draft where
  ns : Option String := none
  setName : Option String := none
  userKey : Option Value := none
  digest : Option String := none

/-- Takes in the field at a place. -/
def fit (i depth : Nat) (d : Document) (s : Draft) : Except Fault Draft :=
  match i with
  | 0 => (d.asText depth).map fun x => { s with ns := some x }
  | 1 => (optionalText depth d).map fun x => { s with setName := x }
  | 2 => (Value.ofDocument depth d).map fun x => { s with userKey := some x }
  | _ => (d.asText depth).map fun x => { s with digest := some x }

/-- The body of a document. -/
def ofDocument (codec : Codec) (depth : Nat) (d : Document) : Except Fault KeyBody := do
  let s ← readFields codec ["namespace", "setName", "userKey", "digest"] 0 fit {} depth d
  let ns ← required "namespace" s.ns
  let userKey ← required "userKey" s.userKey
  pure ⟨ns, s.setName, userKey, ← required "digest" s.digest⟩

end KeyBody

/-- A record in a response. -/
structure RecordBody where
  bins : Bins
  generation : UInt32
  /-- Seconds until the record expires, or `-1` if it does not. -/
  ttl : Int64
  key : KeyBody
  deriving Repr

namespace RecordBody

/-- The document of the body. -/
def toDocument (codec : Codec) (b : RecordBody) : Document :=
  .object [("bins", b.bins.toDocument codec), ("generation", .ofNat b.generation.toNat),
    ("ttl", .ofInt b.ttl.toInt), ("key", b.key.toDocument codec)]

/-- The fields found so far. -/
structure Draft where
  bins : Option Bins := none
  generation : Option UInt32 := none
  ttl : Option Int64 := none
  key : Option KeyBody := none

/-- Takes in the field at a place. -/
def fit (codec : Codec) (i depth : Nat) (d : Document) (s : Draft) : Except Fault Draft :=
  match i with
  | 0 => (Bins.ofDocument depth d).map fun x => { s with bins := some x }
  | 1 => (d.asNat (2 ^ 32)).map fun x => { s with generation := some (UInt32.ofNat x) }
  | 2 => d.asInt.map fun x => { s with ttl := some x }
  | _ => (KeyBody.ofDocument codec depth d).map fun x => { s with key := some x }

/-- The body of a document. -/
def ofDocument (codec : Codec) (depth : Nat) (d : Document) : Except Fault RecordBody := do
  let s ← readFields codec ["bins", "generation", "ttl", "key"] 0 (fit codec) {} depth d
  let bins ← required "bins" s.bins
  let generation ← required "generation" s.generation
  let ttl ← required "ttl" s.ttl
  pure ⟨bins, generation, ttl, ← required "key" s.key⟩

end RecordBody

/-! ## Scans -/

/-- How a scan goes on after a page. -/
structure PaginationBody where
  nextToken : Option String
  totalRecords : Nat
  deriving Repr

namespace PaginationBody

/-- The document of the body. -/
def toDocument (b : PaginationBody) : Document :=
  .object [("nextToken", optionalDocument .text b.nextToken),
    ("totalRecords", .ofNat b.totalRecords)]

/-- The fields found so far. -/
structure Draft where
  nextToken : Option String := none
  totalRecords : Option Nat := none

/-- Takes in the field at a place. -/
def fit (i depth : Nat) (d : Document) (s : Draft) : Except Fault Draft :=
  match i with
  | 0 => (optionalText depth d).map fun x => { s with nextToken := x }
  | _ => (d.asNat (2 ^ 64)).map fun x => { s with totalRecords := some x }

/-- The body of a document. -/
def ofDocument (codec : Codec) (depth : Nat) (d : Document) : Except Fault PaginationBody := do
  let s ← readFields codec ["nextToken", "totalRecords"] 0 fit {} depth d
  pure ⟨s.nextToken, ← required "totalRecords" s.totalRecords⟩

end PaginationBody

/-- A page of a scan in a response. -/
structure ScanBody where
  records : List RecordBody
  pagination : PaginationBody
  deriving Repr

namespace ScanBody

/-- The document of the body. -/
def toDocument (codec : Codec) (b : ScanBody) : Document :=
  .object [("records", .list (b.records.map (RecordBody.toDocument codec))),
    ("pagination", b.pagination.toDocument)]

/-- The fields found so far. -/
structure Draft where
  records : Option (List RecordBody) := none
  pagination : Option PaginationBody := none

/-- Takes in the field at a place. -/
def fit (codec : Codec) (i depth : Nat) (d : Document) (s : Draft) : Except Fault Draft :=
  match i with
  | 0 =>
    (d.asList (RecordBody.ofDocument codec) depth).map fun x => { s with records := some x }
  | _ =>
    (PaginationBody.ofDocument codec depth d).map fun x => { s with pagination := some x }

/-- The body of a document. -/
def ofDocument (codec : Codec) (depth : Nat) (d : Document) : Except Fault ScanBody := do
  let s ← readFields codec ["records", "pagination"] 0 (fit codec) {} depth d
  let records ← required "records" s.records
  pure ⟨records, ← required "pagination" s.pagination⟩

end ScanBody

/-! ## Tasks -/

/-- The status that a document names. -/
def TaskStatus.ofDocument (codec : Codec) (depth : Nat) (d : Document) :
    Except Fault TaskStatus :=
  (bareVariant codec (TaskStatus.all.map TaskStatus.name) depth d).map fun i =>
    TaskStatus.all.getD i .running

/-- A task in a response. What is unknown is left out. -/
structure TaskBody where
  taskId : String
  status : TaskStatus
  submittedAt : String
  recordsProcessed : Option Nat
  error : Option String
  deriving Repr

namespace TaskBody

/-- The document of the body. -/
def toDocument (b : TaskBody) : Document :=
  .object ([("taskId", .text b.taskId), ("status", .text b.status.name),
    ("submittedAt", .text b.submittedAt)] ++
    (b.recordsProcessed.map fun n => ("recordsProcessed", Document.ofNat n)).toList ++
    (b.error.map fun s => ("error", Document.text s)).toList)

/-- The fields found so far. -/
structure Draft where
  taskId : Option String := none
  status : Option TaskStatus := none
  submittedAt : Option String := none
  recordsProcessed : Option Nat := none
  error : Option String := none

/-- Takes in the field at a place. -/
def fit (codec : Codec) (i depth : Nat) (d : Document) (s : Draft) : Except Fault Draft :=
  match i with
  | 0 => (d.asText depth).map fun x => { s with taskId := some x }
  | 1 => (TaskStatus.ofDocument codec depth d).map fun x => { s with status := some x }
  | 2 => (d.asText depth).map fun x => { s with submittedAt := some x }
  | 3 =>
    (d.asOption (Document.asNat (2 ^ 64))).map fun x => { s with recordsProcessed := x }
  | _ => (optionalText depth d).map fun x => { s with error := x }

/-- The body of a document. -/
def ofDocument (codec : Codec) (depth : Nat) (d : Document) : Except Fault TaskBody := do
  let s ← readFields codec ["taskId", "status", "submittedAt", "recordsProcessed", "error"] 2
    (fit codec) {} depth d
  let taskId ← required "taskId" s.taskId
  let status ← required "status" s.status
  pure ⟨taskId, status, ← required "submittedAt" s.submittedAt, s.recordsProcessed, s.error⟩

end TaskBody

/-! ## Cluster and errors -/

/-- The names of the nodes. -/
structure ClusterBody where
  nodes : List String
  deriving Repr

namespace ClusterBody

/-- The document of the body. -/
def toDocument (b : ClusterBody) : Document :=
  .object [("nodes", .list (b.nodes.map .text))]

/-- The body of a document. -/
def ofDocument (codec : Codec) (depth : Nat) (d : Document) : Except Fault ClusterBody := do
  let found ← readFields codec ["nodes"] 0
    (fun _ depth d _ => (d.asList Document.asText depth).map some) none depth d
  pure ⟨← required "nodes" found⟩

end ClusterBody

/-- An error in a response. -/
structure ErrorBody where
  errorKind : String
  message : String
  /-- Whether a write may have been applied. -/
  inDoubt : Bool
  deriving DecidableEq, Repr

namespace ErrorBody

/-- The document of the body. -/
def toDocument (b : ErrorBody) : Document :=
  .object [("errorKind", .text b.errorKind), ("message", .text b.message),
    ("inDoubt", .bool b.inDoubt)]

/-- The fields found so far. -/
structure Draft where
  errorKind : Option String := none
  message : Option String := none
  inDoubt : Option Bool := none

/-- Takes in the field at a place. -/
def fit (i depth : Nat) (d : Document) (s : Draft) : Except Fault Draft :=
  match i with
  | 0 => (d.asText depth).map fun x => { s with errorKind := some x }
  | 1 => (d.asText depth).map fun x => { s with message := some x }
  | _ => d.asBool.map fun x => { s with inDoubt := some x }

/-- The body of a document. -/
def ofDocument (codec : Codec) (depth : Nat) (d : Document) : Except Fault ErrorBody := do
  let s ← readFields codec ["errorKind", "message", "inDoubt"] 0 fit {} depth d
  let errorKind ← required "errorKind" s.errorKind
  let message ← required "message" s.message
  pure ⟨errorKind, message, ← required "inDoubt" s.inDoubt⟩

end ErrorBody
end RecordService
