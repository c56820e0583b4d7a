import RecordService.Number.Double
import RecordService.Text.Whole

/-!
# Decimal text and doubles

* `Double.ofDecimal`: the double nearest to `digits * 10 ^ exponent`.
* `Double.ofText?`: the double that a decimal text names. The text is an optional sign and either
  a name of infinity or NaN in any case, or digits with at most one point among them and an
  optional exponent. Of an exponent beyond `Double.exponentCap` only the first digits count.
* `Double.shortest`: the fewest decimal digits that name a double, and of these the nearest.
-/

namespace RecordService

/-- The value `digits * 10 ^ exponent`. -/
structure Decimal where
  digits : Nat
  exponent : Int
  deriving DecidableEq, Repr

namespace Double

/-- The double nearest to a decimal. An exponent far outside the range of doubles is not
computed with: the decimal is then zero or infinite. -/
def ofDecimal (negative : Bool) (d : Decimal) : Double :=
  if d.digits = 0 then ofParts negative 0
  else
    let size : Int := (Nat.log2 d.digits : Int)
    if 1100 < d.exponent then ofParts negative infinityMagnitude
    else if d.exponent < -(size + 1100) then ofParts negative 0
    else if 0 ≤ d.exponent then ofRatio negative (d.digits * 10 ^ d.exponent.toNat) 1
    else ofRatio negative d.digits (10 ^ (-d.exponent).toNat)

/-! ## Reading -/

/-- The number that the digits spell, continued from `n`; characters that are no digits are not
expected. -/
def digitsValue (n : Nat) (cs : List Char) : Nat :=
  cs.foldl (fun n c => 10 * n + (c.toNat - 48)) n

/-- The number that the digits spell as long as it stays small: once it has reached `cap`, the
digits that follow are dropped. -/
def cappedValue (cap : Nat) (cs : List Char) : Nat :=
  cs.foldl (fun n c => if n < cap then 10 * n + (c.toNat - 48) else n) 0

/-- The number from which on an exponent in a text takes in no more digits. -/
def exponentCap : Nat := 2 ^ 16

/-- Reads the digits of an exponent. -/
def exponentDigits? (ds : List Char) : Option Nat :=
  if ds.isEmpty || !ds.all Text.isDigit then none else some (cappedValue exponentCap ds)

/-- Reads an exponent: `e` in either case, an optional sign and digits. No text is exponent 0. -/
def exponentText? : List Char → Option Int
  | [] => some 0
  | c :: rest =>
    if c = 'e' ∨ c = 'E' then
      match rest with
      | '+' :: ds => (exponentDigits? ds).map Int.ofNat
      | '-' :: ds => (exponentDigits? ds).map fun n => -Int.ofNat n
      | ds => (exponentDigits? ds).map Int.ofNat
    else none

/-- Reads digits with at most one point before, among or after them, and an optional exponent. -/
def decimalText? (cs : List Char) : Option Decimal :=
  let whole := cs.takeWhile Text.isDigit
  let rest := cs.dropWhile Text.isDigit
  let (fraction, rest) := match rest with
    | '.' :: rest => (rest.takeWhile Text.isDigit, rest.dropWhile Text.isDigit)
    | rest => ([], rest)
  if whole.isEmpty && fraction.isEmpty then none
  else
    (exponentText? rest).map fun e =>
      ⟨digitsValue (digitsValue 0 whole) fraction, e - (fraction.length : Int)⟩

/-- Reads a number without its sign. -/
def magnitudeText? (negative : Bool) (cs : List Char) : Option Double :=
  let name := String.ofList (cs.map Char.toLower)
  if name = "inf" ∨ name = "infinity" then some (ofParts negative infinityMagnitude)
  else if name = "nan" then some (if negative then nan.neg else nan)
  else (decimalText? cs).map (ofDecimal negative)

/-- The double that a decimal text names. -/
def ofText? (s : String) : Option Double :=
  match s.toList with
  | '+' :: cs => magnitudeText? false cs
  | '-' :: cs => magnitudeText? true cs
  | cs => magnitudeText? false cs

/-! ## The fewest digits -/

/-- Twice the distance from the fraction `num / den` to `n`, times `den`, as an ordering of two
candidates: the nearer one, of two equally near ones the even one. -/
def nearer (num den a b : Nat) : Nat :=
  let da := num - a * den
  let db := b * den - num
  if da < db then a else if db < da then b else if a % 2 = 0 then a else b

/-- The rounding interval of a positive finite double, in units of a quarter of its last place:
the lower end, the number itself and the upper end. Below a power of two the lower neighbour is
only half as far. -/
def interval (m : Nat) (e : Int) : Nat × Nat × Nat :=
  let below := if m = 2 ^ 52 ∧ e ≠ -1074 then 1 else 2
  (4 * m - below, 4 * m, 4 * m + 2)

/-- The digits of a grid point of spacing `10 ^ p` inside the rounding interval, the nearest one,
if there is one. -/
def onGrid? (m : Nat) (e : Int) (p : Int) : Option Nat :=
  let (lo, mid, hi) := interval m e
  -- everything is multiplied by `num / den = 2 ^ (e - 2) / 10 ^ p`
  let (n2, d2) := if 2 ≤ e then (2 ^ (e - 2).toNat, 1) else (1, 2 ^ (2 - e).toNat)
  let (n10, d10) := if 0 ≤ p then (1, 10 ^ p.toNat) else (10 ^ (-p).toNat, 1)
  let num := n2 * n10
  let den := d2 * d10
  let inside (k : Nat) : Bool :=
    if m % 2 = 0 then lo * num ≤ k * den && k * den ≤ hi * num
    else lo * num < k * den && k * den < hi * num
  let a := mid * num / den
  let b := a + 1
  match inside a, inside b with
  | true, true => some (nearer (mid * num) den a b)
  | true, false => some a
  | false, true => some b
  | false, false => none

/-- Tries grids of finer and finer spacing. -/
def shortestFrom (m : Nat) (e : Int) (p : Int) : Nat → Decimal
  | 0 => ⟨0, 0⟩
  | tries + 1 =>
    match onGrid? m e p with
    | some digits => if digits = 0 then shortestFrom m e (p - 1) tries else ⟨digits, p⟩
    | none => shortestFrom m e (p - 1) tries

/-- Drops zeros at the end of the digits. -/
def withoutZeros (d : Decimal) : Nat → Decimal
  | 0 => d
  | n + 1 =>
    if d.digits ≠ 0 ∧ d.digits % 10 = 0 then withoutZeros ⟨d.digits / 10, d.exponent + 1⟩ n else d

/-- The fewest digits that name the magnitude of a finite double other than zero, the nearest to
it of all such, and the even one of two equally near. -/
def shortest (x : Double) : Decimal :=
  let m := x.significand
  let e := x.exponent
  -- a power of ten above the number: `m * 2 ^ e < 2 ^ (log2 m + 1 + e)`
  let top : Int := ((Nat.log2 m : Int) + 1 + e) * 30103 / 100000 + 1
  withoutZeros (shortestFrom m e top 20) 20

end Double
end RecordService
