import RecordService.Document.Basic
import RecordService.Number.Decimal

/-!
# JSON numbers

* `Document.ofNumber`: the leaf of a number token. A token without point and exponent that fits 64
  bits is an integer, minus zero apart; every other is a double.
* `jsonDouble?`: the double of a token. Its digits are kept as long as they fit 64 bits, and then
  scaled by powers of ten in double arithmetic, so the last bit may differ from the nearest double.
* `numberText`: the text of a finite double, with the fewest digits that name it.
-/

namespace RecordService.Json

/-- A number token, taken apart. -/
structure NumberToken where
  negative : Bool
  whole : List Char
  fraction : Option (List Char)
  exponent : Option Int
  deriving DecidableEq, Repr

/-- The digits that are kept, and the power of ten that they are scaled by. -/
structure Scaled where
  digits : Nat
  power : Int
  deriving DecidableEq, Repr

/-- Whether another digit still fits. -/
def Scaled.takes (s : Scaled) (digit : Nat) : Bool := s.digits * 10 + digit < 2 ^ 64

/-- The digits before the point: from the first one that does not fit, each only counts. -/
def scaleWhole (s : Scaled) : List Char → Scaled
  | [] => s
  | c :: rest =>
    let digit := c.toNat - 48
    if s.takes digit then scaleWhole ⟨s.digits * 10 + digit, s.power⟩ rest
    else ⟨s.digits, s.power + (rest.length + 1 : Nat)⟩

/-- The digits after the point: from the first one that does not fit, all are dropped. -/
def scaleFraction (s : Scaled) : List Char → Scaled
  | [] => s
  | c :: rest =>
    let digit := c.toNat - 48
    if s.takes digit then scaleFraction ⟨s.digits * 10 + digit, s.power - 1⟩ rest else s

/-- The power of ten nearest to `10 ^ n`. -/
def powerOfTen (n : Nat) : Double := Double.ofNat (10 ^ n)

/-- The scaled digits as a double, unless it is beyond every double. Powers below `10 ^ -308` are
divided out in two steps. -/
def Scaled.toDouble? (s : Scaled) : Option Double :=
  let x := Double.ofNat s.digits
  if x.isZero then some x
  else if 0 ≤ s.power then
    if 308 < s.power then none
    else
      let y := x.mul (powerOfTen s.power.toNat)
      if y.isInfinite then none else some y
  else if -308 ≤ s.power then some (x.div (powerOfTen (-s.power).toNat))
  else if -616 ≤ s.power then
    some ((x.div (powerOfTen 308)).div (powerOfTen (-s.power - 308).toNat))
  else some (Double.ofParts false 0)

/-- The double that a token names, unless it is beyond every double. -/
def jsonDouble? (t : NumberToken) : Option Double :=
  let s := scaleFraction (scaleWhole ⟨0, 0⟩ t.whole) (t.fraction.getD [])
  let x? := Scaled.toDouble? ⟨s.digits, s.power + t.exponent.getD 0⟩
  if t.negative then x?.map Double.neg else x?

/-- The leaf of a number token. -/
def NumberToken.toDocument (t : NumberToken) : Document :=
  let double := match jsonDouble? t with
    | some x => Document.float x
    | none => Document.unreadable
  if t.fraction.isSome || t.exponent.isSome || 20 < t.whole.length then double
  else
    let n := Double.digitsValue 0 t.whole
    if 2 ^ 64 ≤ n then double
    else if !t.negative then Document.ofNat n
    else if n = 0 ∨ 2 ^ 63 < n then Document.float (Double.ofNat n).neg
    else Document.ofInt (-(n : Int))

/-- The decimal digits of a number. -/
def digits (n : Nat) : List Char := Nat.toDigits 10 n

/-- How doubles are written: in plain notation with at least one digit after the point from
`10 ^ -5` up to `10 ^ 16`, else with one digit before the point and a signed exponent. -/
def decimalText (d : Decimal) : List Char :=
  let ds := digits d.digits
  -- the number is `0.ds * 10 ^ point`
  let point : Int := ds.length + d.exponent
  if 0 < point ∧ point ≤ 16 then
    if 0 ≤ d.exponent then ds ++ List.replicate d.exponent.toNat '0' ++ ['.', '0']
    else ds.take point.toNat ++ '.' :: ds.drop point.toNat
  else if -5 < point ∧ point ≤ 0 then
    '0' :: '.' :: List.replicate (-point).toNat '0' ++ ds
  else
    let fraction := match ds.drop 1 with
      | [] => []
      | rest => '.' :: rest
    let e := point - 1
    let sign := if 0 ≤ e then '+' else '-'
    ds.take 1 ++ fraction ++ 'e' :: sign :: digits e.natAbs

/-- The text of a finite double. -/
def numberText (x : Double) : String :=
  let body := if x.isZero then ['0', '.', '0'] else decimalText x.shortest
  String.ofList (if x.isNegative then '-' :: body else body)

end RecordService.Json
