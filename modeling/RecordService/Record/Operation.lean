import RecordService.Record.Key
import RecordService.Value

/-!
# Records and operations on their bins

* `Record`: a record as it is handed out.
* `Operation`: a step of a list that is applied to the bins of one record.
* `Operation.applyAll`: applies a list in order to bins. It stops at the first step that does not
  fit its bin, and then there are no new bins.
-/

namespace RecordService

/-- A record as it is handed out: under the address it was asked for by, with the seconds until it
expires if it does. -/
structure Record where
  address : Address
  digest : Digest
  bins : Bins
  generation : UInt32
  expiration : Option UInt32
  deriving Repr

/-- One step of a list of operations. -/
inductive Operation
  /-- Stores a value; a null value removes the bin. -/
  | put (bin : String) (value : Value)
  /-- Adds to a number, or stores the number where the bin is missing. -/
  | add (bin : String) (increment : Value)
  /-- Puts text behind the text of a bin. -/
  | append (bin : String) (text : String)
  /-- Puts text in front of the text of a bin. -/
  | prepend (bin : String) (text : String)
  | deleteBin (bin : String)
  /-- Changes no bin, but counts as a change of the record. -/
  | touch
  /-- Reports one bin. -/
  | read (bin : String)
  /-- Reports all bins. -/
  | get
  deriving Repr

/-- Why an operation does not fit its bin. -/
inductive OperationFault
  | overflow (bin : String)
  | kinds (increment existing bin : String)
  | noNumber (kind : String)
  | noText (existing bin : String)
  deriving DecidableEq, Repr

/-- The text of an operation fault. -/
def OperationFault.message : OperationFault → String
  | overflow bin => "integer overflow adding to bin '" ++ bin ++ "'"
  | kinds increment existing bin =>
    "cannot add " ++ increment ++ " to " ++ existing ++ " bin '" ++ bin ++ "'"
  | noNumber kind => "increment must be Int or Float, got " ++ kind
  | noText existing bin => "cannot concatenate onto " ++ existing ++ " bin '" ++ bin ++ "'"

namespace Operation

/-- Whether an operation only reports. -/
def isRead : Operation → Bool
  | read _ | get => true
  | _ => false

/-- The bin that an operation is about. -/
def bin? : Operation → Option String
  | put bin _ | add bin _ | append bin _ | prepend bin _ | deleteBin bin | read bin => some bin
  | touch | get => none

/-- The sum of two 64-bit integers, if it is one. -/
def sum? (a b : Int64) : Option Int64 :=
  let s := a.toInt + b.toInt
  if -2 ^ 63 ≤ s ∧ s < 2 ^ 63 then some (Int64.ofInt s) else none

/-- The value of a bin after an addition. -/
def added (bin : String) (existing : Option Value) (increment : Value) :
    Except OperationFault Value :=
  match existing, increment with
  | none, .int n => .ok (.int n)
  | none, .float x => .ok (.float x)
  | some (.int a), .int b =>
    match sum? a b with
    | some s => .ok (.int s)
    | none => .error (.overflow bin)
  | some (.float a), .float b => .ok (.float (a.add b))
  | some v, .int n => .error (.kinds (Value.int n).kindName v.kindName bin)
  | some v, .float x => .error (.kinds (Value.float x).kindName v.kindName bin)
  | _, v => .error (.noNumber v.kindName)

/-- The value of a bin whose text is changed; a missing bin has the empty text. -/
def joined (bin : String) (existing : Option Value) (change : String → String) :
    Except OperationFault Value :=
  match existing with
  | none => .ok (.string (change ""))
  | some (.string s) => .ok (.string (change s))
  | some v => .error (.noText v.kindName bin)

/-- Bins under operation: the bins so far, what was reported, and whether the record counts as
changed. -/
structure Progress where
  bins : Bins
  results : Bins
  modified : Bool
  deriving Repr

/-- The bins with a value stored, or removed if it is null. -/
def store (bin : String) (value : Value) (bins : Bins) : Bins :=
  if value.isNull then Ordered.erase bin bins else Ordered.insert bin value bins

/-- Applies one operation. -/
def apply (p : Progress) : Operation → Except OperationFault Progress
  | put bin value => .ok { p with bins := store bin value p.bins, modified := true }
  | add bin increment =>
    (added bin (Ordered.find? bin p.bins) increment).map fun v =>
      { p with bins := Ordered.insert bin v p.bins, modified := true }
  | append bin text =>
    (joined bin (Ordered.find? bin p.bins) (· ++ text)).map fun v =>
      { p with bins := Ordered.insert bin v p.bins, modified := true }
  | prepend bin text =>
    (joined bin (Ordered.find? bin p.bins) (text ++ ·)).map fun v =>
      { p with bins := Ordered.insert bin v p.bins, modified := true }
  | deleteBin bin => .ok { p with bins := Ordered.erase bin p.bins, modified := true }
  | touch => .ok { p with modified := true }
  | read bin =>
    match Ordered.find? bin p.bins with
    | some v => .ok { p with results := Ordered.insert bin v p.results }
    | none => .ok p
  | get => .ok { p with results := p.bins.foldl (fun r e => Ordered.insert e.1 e.2 r) p.results }

/-- Applies operations in order. -/
def applyFrom (p : Progress) : List Operation → Except OperationFault Progress
  | [] => .ok p
  | op :: rest => (apply p op).bind fun p => applyFrom p rest

/-- Applies operations in order to bins, with nothing reported so far. -/
def applyAll (ops : List Operation) (bins : Bins) : Except OperationFault Progress :=
  applyFrom ⟨bins, [], false⟩ ops

end Operation
end RecordService
