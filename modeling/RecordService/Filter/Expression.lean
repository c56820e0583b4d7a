import RecordService.Value

/-!
# Filter expressions

A filter is an expression over the bins and the generation of a record. It selects the record if
it evaluates to true.

Evaluation has three truth values. A bin that is missing or of another kind than the one named is
unknown, and so is every comparison of operands that are unknown or cannot be compared. A
conjunction is false as soon as one operand is, a disjunction true as soon as one is; else an
operand that is neither true nor false makes them unknown.

* `Expression.eval`, `Expression.selects`: evaluation.
* `Comparison.judge`: the result of comparing two values.
-/

namespace RecordService

/-- The kinds of values that a bin can be expected to hold. -/
inductive BinKind
  | int | float | string | bool | blob | list | map | geoJson
  deriving DecidableEq, Repr

namespace BinKind

/-- The name of a kind. -/
def name : BinKind → String
  | int => "Int"
  | float => "Float"
  | string => "String"
  | bool => "Bool"
  | blob => "Blob"
  | list => "List"
  | map => "Map"
  | geoJson => "GeoJson"

/-- Every kind. -/
def all : List BinKind := [int, float, string, bool, blob, list, map, geoJson]

/-- Whether a value is of a kind. -/
def admits (k : BinKind) (v : Value) : Bool := k.name == v.kindName

end BinKind

/-- The six comparisons. -/
inductive Comparison
  | eq | ne | gt | ge | lt | le
  deriving DecidableEq, Repr

/-- A filter expression. -/
inductive Expression
  | compare (op : Comparison) (left right : Expression)
  | and (operands : List Expression)
  | or (operands : List Expression)
  | not (operand : Expression)
  | bin (name : String) (kind : BinKind)
  | binExists (name : String)
  | generation
  | literal (v : Value)
  deriving Inhabited, Repr

/-- What an expression evaluates to. -/
inductive Outcome
  | bool (b : Bool)
  /-- A value that is no truth value. -/
  | value (v : Value)
  | unknown
  deriving Repr

/-- The outcome of a value: truth values are outcomes of their own. -/
def Outcome.ofValue : Value → Outcome
  | .bool b => .bool b
  | v => .value v

/-- The value of an outcome, if it is known. -/
def Outcome.value? : Outcome → Option Value
  | .bool b => some (.bool b)
  | .value v => some v
  | .unknown => none

namespace Comparison

/-- Whether a comparison holds of two things in the given order. -/
def accepts : Comparison → Ordering → Bool
  | eq, o => o == .eq
  | ne, o => o != .eq
  | gt, o => o == .gt
  | ge, o => o != .lt
  | lt, o => o == .lt
  | le, o => o != .gt

/-- How two things stand to each other in their order. -/
def order {α : Type} [LT α] [DecidableLT α] (a b : α) : Ordering :=
  if a < b then .lt else if b < a then .gt else .eq

/-- How two doubles stand to each other, unless one is a NaN. -/
def orderDouble? (a b : Double) : Option Ordering :=
  match a.key?, b.key? with
  | some x, some y => some (order x y)
  | _, _ => none

/-- The result for two values that are equal or not, but in no order. -/
def judgeEqual (op : Comparison) (same : Bool) : Outcome :=
  match op with
  | eq => .bool same
  | ne => .bool !same
  | _ => .unknown

/-- The result of comparing two values. Values of different kinds cannot be compared, and lists,
maps and GeoJson texts only for equality. -/
def judge (op : Comparison) (a b : Value) : Outcome :=
  match a, b with
  | .int a, .int b => .bool (op.accepts (order a.toInt b.toInt))
  | .float a, .float b =>
    match orderDouble? a b with
    | some o => .bool (op.accepts o)
    | none => .unknown
  | .string a, .string b => .bool (op.accepts (order a b))
  | .bool a, .bool b => .bool (op.accepts (order a.toNat b.toNat))
  | .blob a, .blob b => .bool (op.accepts (order a b))
  | .null, .null => .bool (op.accepts .eq)
  | .list a, .list b => op.judgeEqual (Value.same (.list a) (.list b))
  | .map a, .map b => op.judgeEqual (Value.same (.map a) (.map b))
  | .geoJson a, .geoJson b => op.judgeEqual (Value.same (.geoJson a) (.geoJson b))
  | _, _ => .unknown

end Comparison

namespace Expression

/-- The outcome of a negation. -/
def negate : Outcome → Outcome
  | .bool b => .bool !b
  | _ => .unknown

/-- The outcome of a bin that is expected to be of a kind. -/
def binOutcome (bins : Bins) (name : String) (kind : BinKind) : Outcome :=
  match Ordered.find? name bins with
  | some v => if kind.admits v then .ofValue v else .unknown
  | none => .unknown

mutual

/-- What an expression evaluates to for the bins and the generation of a record. -/
def eval (bins : Bins) (gen : UInt32) : Expression → Outcome
  | compare op left right =>
    match (eval bins gen left).value?, (eval bins gen right).value? with
    | some a, some b => op.judge a b
    | _, _ => .unknown
  | and operands => evalAll bins gen false operands
  | or operands => evalAny bins gen false operands
  | not operand => negate (eval bins gen operand)
  | bin name kind => binOutcome bins name kind
  | binExists name => .bool (Ordered.find? name bins).isSome
  | generation => .value (.int (Int64.ofNat gen.toNat))
  | literal v => .ofValue v

/-- The outcome of a conjunction, `pending` telling whether an operand before was unknown. -/
def evalAll (bins : Bins) (gen : UInt32) (pending : Bool) : List Expression → Outcome
  | [] => if pending then .unknown else .bool true
  | e :: rest =>
    match eval bins gen e with
    | .bool false => .bool false
    | .bool true => evalAll bins gen pending rest
    | _ => evalAll bins gen true rest

/-- The outcome of a disjunction, `pending` telling whether an operand before was unknown. -/
def evalAny (bins : Bins) (gen : UInt32) (pending : Bool) : List Expression → Outcome
  | [] => if pending then .unknown else .bool false
  | e :: rest =>
    match eval bins gen e with
    | .bool true => .bool true
    | .bool false => evalAny bins gen pending rest
    | _ => evalAny bins gen true rest

end

/-- Whether the expression is true of the bins and the generation of a record. -/
def selects (e : Expression) (bins : Bins) (gen : UInt32) : Bool :=
  match e.eval bins gen with
  | .bool true => true
  | _ => false

end Expression
end RecordService
