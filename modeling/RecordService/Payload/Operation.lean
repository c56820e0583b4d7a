import RecordService.Payload.Value
import RecordService.Record.Operation

/-!
# Operations on the wire

An operation is a map whose `operationType` names what it does, with the operands as further
fields, or a list of that name and the operands in order. The whole map or list is read before any
operand is looked at.

* `Operation.toDocument`, `Operation.ofDocument`: one operation.
* `OperationsBody`: the body that carries a list of them.
-/

namespace RecordService

namespace Operation

/-- The field that tells what an operation does. -/
def typeField : String := "operationType"

/-- What an operation can do, in the order of the names that messages list. -/
inductive Kind
  | put | add | append | prepend | deleteBin | touch | read | get
  deriving DecidableEq, Repr

/-- Every kind of operation. -/
def Kind.all : List Kind := [.put, .add, .append, .prepend, .deleteBin, .touch, .read, .get]

/-- The name of a kind of operation. -/
def Kind.name : Kind → String
  | .put => "PUT"
  | .add => "ADD"
  | .append => "APPEND"
  | .prepend => "PREPEND"
  | .deleteBin => "DELETE_BIN"
  | .touch => "TOUCH"
  | .read => "READ"
  | .get => "GET"

/-- The operands of a kind of operation. -/
def Kind.operands : Kind → List String
  | .put | .append | .prepend => ["bin", "value"]
  | .add => ["bin", "incr"]
  | .deleteBin | .read => ["bin"]
  | .touch | .get => []

/-- The map of an operation. -/
def toDocument (codec : Codec) (op : Operation) : Document :=
  let (kind, operands) : Kind × List (String × Document) := match op with
    | put bin value => (.put, [("bin", .text bin), ("value", value.toDocument codec)])
    | add bin increment => (.add, [("bin", .text bin), ("incr", increment.toDocument codec)])
    | append bin text => (.append, [("bin", .text bin), ("value", .text text)])
    | prepend bin text => (.prepend, [("bin", .text bin), ("value", .text text)])
    | deleteBin bin => (.deleteBin, [("bin", .text bin)])
    | touch => (.touch, [])
    | read bin => (.read, [("bin", .text bin)])
    | get => (.get, [])
  .object ((typeField, .text kind.name) :: operands)

/-- The kind of operation that a document names. -/
def kindOf (codec : Codec) (depth : Nat) (d : Document) : Except Fault Kind :=
  (variantIndex codec (Kind.all.map Kind.name) depth d).map fun i => Kind.all.getD i .put

/-! ## Operands -/

/-- The operands found so far. -/
structure Operands where
  bin : Option String := none
  value : Option Value := none
  text : Option String := none

/-- Takes in the operand at a place. -/
def takeOperand (kind : Kind) (i depth : Nat) (d : Document) (s : Operands) :
    Except Fault Operands :=
  match i, kind with
  | 0, _ => (d.asText depth).map fun bin => { s with bin := some bin }
  | _, .append | _, .prepend => (d.asText depth).map fun t => { s with text := some t }
  | _, _ => (Value.ofDocument depth d).map fun v => { s with value := some v }

/-- Which operand a key names: by its name, or by its place in one byte or in eight. -/
def operandIndex (names : List String) : Document → Except Fault (Option Nat)
  | .text s => .ok (names.idxOf? s)
  | .bytes b => .ok (names.findIdx? fun n => Bytes.utf8 n == b)
  | .natural .one n | .natural .eight n => .ok (if n < names.length then some n else none)
  | _ => .error .other

/-- Reads the operands out of the fields of a map. -/
def readOperands (kind : Kind) (depth : Nat) :
    (seen : List Nat) → Operands → List (Document × Document) → Except Fault Operands
  | _, s, [] => .ok s
  | seen, s, (k, d) :: rest =>
    (operandIndex kind.operands k).bind fun
      | none => readOperands kind depth seen s rest
      | some i =>
        if seen.contains i then .error (.mismatch (.duplicateField (kind.operands.getD i "")))
        else
          (takeOperand kind i depth d s).bind fun s => readOperands kind depth (i :: seen) s rest

/-- Reads the operands out of a list. -/
def listOperands (kind : Kind) (depth : Nat) :
    (i : Nat) → Operands → List Document → Except Fault Operands
  | i, s, [] => if i = kind.operands.length then .ok s else .error .other
  | i, s, d :: rest =>
    if kind.operands.length ≤ i then .error .other
    else (takeOperand kind i depth d s).bind fun s => listOperands kind depth (i + 1) s rest

/-- The operation of a kind with its operands. -/
def build (kind : Kind) (s : Operands) : Except Fault Operation := do
  match kind with
  | .touch => pure touch
  | .get => pure get
  | .deleteBin => pure (deleteBin (← required "bin" s.bin))
  | .read => pure (read (← required "bin" s.bin))
  | .put =>
    let bin ← required "bin" s.bin
    pure (put bin (← required "value" s.value))
  | .add =>
    let bin ← required "bin" s.bin
    pure (add bin (← required "incr" s.value))
  | .append =>
    let bin ← required "bin" s.bin
    pure (append bin (← required "value" s.text))
  | .prepend =>
    let bin ← required "bin" s.bin
    pure (prepend bin (← required "value" s.text))

/-! ## Whole operations -/

/-- Whether a key is the field that tells what an operation does. -/
def isTypeField : Document → Bool
  | .text s => s == typeField
  | .bytes b => b == Bytes.utf8 typeField
  | _ => false

/-- Passes over all fields of a map, taking in the kind of operation and keeping the others. -/
def gather (codec : Codec) (depth : Nat) (kind : Option Kind)
    (fields : List (Document × Document)) :
    List (Document × Document) → Except Fault (Option Kind × List (Document × Document))
  | [] => .ok (kind, fields.reverse)
  | (k, d) :: rest =>
    (k.survey (some depth)).bind fun _ =>
      if isTypeField k then
        if kind.isSome then .error (.mismatch (.duplicateField typeField))
        else (kindOf codec depth d).bind fun kind => gather codec depth (some kind) fields rest
      else
        (d.survey (some depth)).bind fun _ =>
          gather codec depth kind ((k.keep, d.keep) :: fields) rest

/-- The operation of a document in which `depth` more containers may nest. Where a kind has no
operands, no other field is looked at. -/
def ofDocument (codec : Codec) (depth : Nat) : Document → Except Fault Operation
  | .map entries =>
    if depth = 0 then .error .malformed
    else do
      let (kind, fields) ← gather codec (depth - 1) none [] entries
      let kind ← required typeField kind
      let fields := if kind.operands.isEmpty then [] else fields
      build kind (← readOperands kind (depth - 1) [] {} fields)
  | .list items =>
    if depth = 0 then .error .malformed
    else
      match items with
      | [] => .error (.mismatch (.missingField typeField))
      | first :: rest => do
        let kind ← kindOf codec (depth - 1) first
        Document.surveyItems (some (depth - 1)) rest
        build kind (← listOperands kind (depth - 1) 0 {} (Document.keepItems rest))
  | d => .error (d.misfit depth)

end Operation

/-- The body of a request that carries a list of operations. -/
structure OperationsBody where
  operations : List Operation

namespace OperationsBody

/-- The document of the body. -/
def toDocument (codec : Codec) (body : OperationsBody) : Document :=
  .object [("opsList", .list (body.operations.map (Operation.toDocument codec)))]

/-- The body of a document. -/
def ofDocument (codec : Codec) (depth : Nat) (d : Document) : Except Fault OperationsBody := do
  let operations := Document.asList fun depth d => Operation.ofDocument codec depth d
  let found ← readFields codec ["opsList"] 0
    (fun _ depth d _ => (operations depth d).map some) none depth d
  pure ⟨← required "opsList" found⟩

end OperationsBody
end RecordService
