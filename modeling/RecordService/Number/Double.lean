import RecordService.Bytes

/-!
# Double-precision numbers

A double is its 64-bit pattern. All arithmetic is exact arithmetic on `Nat` followed by one
rounding, to the nearest double with ties to the even significand.

* `key?`: where a double lies in the order of the numbers; a NaN lies nowhere, and the two zeros
  lie at one place.
* `same`, `less`: comparison of numbers, false when either is a NaN.
* `ofRatio`: the double nearest to a fraction.
* `add`, `mul`, `div`: the rounded sum, product and quotient.
-/

namespace RecordService

/-- A double-precision number, by its bits. -/
structure Double where
  bits : UInt64
  deriving DecidableEq, Repr

namespace Double

/-- Whether the sign bit is set. -/
def isNegative (x : Double) : Bool := x.bits.toNat / 2 ^ 63 = 1

/-- The bits below the sign: exponent field and fraction. -/
def magnitude (x : Double) : Nat := x.bits.toNat % 2 ^ 63

/-- The magnitude of the infinities; greater magnitudes are NaNs. -/
def infinityMagnitude : Nat := 0x7FF * 2 ^ 52

/-- Whether the bits stand for no number. -/
def isNaN (x : Double) : Bool := infinityMagnitude < x.magnitude

/-- Whether the number is one of the two infinities. -/
def isInfinite (x : Double) : Bool := x.magnitude = infinityMagnitude

/-- Whether the number is one of the two zeros. -/
def isZero (x : Double) : Bool := x.magnitude = 0

/-- The double with the given sign and magnitude. -/
def ofParts (negative : Bool) (magnitude : Nat) : Double :=
  ⟨UInt64.ofNat ((if negative then 2 ^ 63 else 0) + magnitude)⟩

/-- The NaN that stands for every NaN where only the number counts. -/
def nan : Double := ⟨0x7FF8000000000000⟩
/-- Positive infinity. -/
def infinity : Double := ⟨0x7FF0000000000000⟩
/-- Negative infinity. -/
def negInfinity : Double := ⟨0xFFF0000000000000⟩
/-- Zero with the sign bit set. -/
def negZero : Double := ⟨0x8000000000000000⟩

/-- The place of a double in the order of the numbers. -/
def key? (x : Double) : Option Int :=
  if x.isNaN then none
  else if x.isNegative then some (-(x.magnitude : Int))
  else some x.magnitude

/-- Whether two doubles are the same number. -/
def same (x y : Double) : Bool :=
  match x.key?, y.key? with
  | some a, some b => a = b
  | _, _ => false

/-- A finite double is `significand * 2 ^ exponent`, up to its sign. -/
def significand (x : Double) : Nat :=
  if x.magnitude < 2 ^ 52 then x.magnitude else x.magnitude % 2 ^ 52 + 2 ^ 52

/-- The exponent that goes with the significand. -/
def exponent (x : Double) : Int :=
  if x.magnitude < 2 ^ 52 then -1074 else (x.magnitude / 2 ^ 52 : Nat) - 1075

/-- The quotient rounded to the nearest whole number, a tie to the even one. -/
def roundDiv (num den : Nat) : Nat :=
  let q := num / den
  let r := num % den
  if den < 2 * r ∨ (den = 2 * r ∧ q % 2 = 1) then q + 1 else q

/-- The numerator and denominator of `num / den / 2 ^ e`. -/
def scaled (num den : Nat) (e : Int) : Nat × Nat :=
  if 0 ≤ e then (num, den * 2 ^ e.toNat) else (num * 2 ^ (-e).toNat, den)

/-- The exponent at which `num / den` has a significand of 53 bits, or the least exponent. -/
def exponentFor (num den : Nat) : Int :=
  let guess : Int := (Nat.log2 num : Int) - Nat.log2 den - 52
  let e := if (scaled num den guess).1 < 2 ^ 52 * (scaled num den guess).2 then guess - 1 else guess
  max e (-1074)

/-- The magnitude of `m * 2 ^ e`, for `m` of at most 53 bits, or one more than those can hold. -/
def magnitudeOf (m : Nat) (e : Int) : Nat :=
  if m < 2 ^ 52 then m
  else min infinityMagnitude ((e + 1075).toNat * 2 ^ 52 + (m - 2 ^ 52))

/-- The double nearest to the fraction `num / den`, infinite beyond the greatest double. -/
def ofRatio (negative : Bool) (num den : Nat) : Double :=
  if num = 0 then ofParts negative 0
  else
    let e := exponentFor num den
    let (n, d) := scaled num den e
    ofParts negative (magnitudeOf (roundDiv n d) e)

/-- The double nearest to a whole number. -/
def ofNat (n : Nat) : Double := ofRatio false n 1

/-- The opposite number. -/
def neg (x : Double) : Double := ofParts (!x.isNegative) x.magnitude

/-- The NaN that an operation hands on: the same one, marked quiet. -/
def quiet (x : Double) : Double := ⟨x.bits ||| 0x0008000000000000⟩

/-- The NaN of an operation on numbers that has no result. -/
def noResult : Double := ⟨0xFFF8000000000000⟩

/-- `s * 2 ^ e` as a whole number of units `2 ^ least`, with its sign. -/
def units (x : Double) (least : Int) : Int :=
  let n := x.significand * 2 ^ (x.exponent - least).toNat
  if x.isNegative then -(n : Int) else n

/-- The rounded sum. A sum of zero is negative only if both numbers are. -/
def add (x y : Double) : Double :=
  if x.isNaN then x.quiet
  else if y.isNaN then y.quiet
  else if x.isInfinite then
    if y.isInfinite ∧ x.isNegative ≠ y.isNegative then noResult else x
  else if y.isInfinite then y
  else
    let least := min x.exponent y.exponent
    let sum := x.units least + y.units least
    let negative := if sum = 0 then x.isNegative && y.isNegative else decide (sum < 0)
    let (n, d) := scaled sum.natAbs 1 (-least)
    ofRatio negative n d

/-- The rounded product of two finite numbers. -/
def mul (x y : Double) : Double :=
  let (n, d) := scaled (x.significand * y.significand) 1 (-(x.exponent + y.exponent))
  ofRatio (x.isNegative != y.isNegative) n d

/-- The rounded quotient of two finite numbers, the second not zero. -/
def div (x y : Double) : Double :=
  let (n, d) := scaled x.significand y.significand (y.exponent - x.exponent)
  ofRatio (x.isNegative != y.isNegative) n d

/-- The double that equals a single-precision number, given by its 32 bits. -/
def ofSingleBits (b : Nat) : Double :=
  let negative := b / 2 ^ 31 % 2 = 1
  let e := b / 2 ^ 23 % 2 ^ 8
  let f := b % 2 ^ 23
  if e = 255 then
    let x := ofParts negative (infinityMagnitude + f * 2 ^ 29)
    if f = 0 then x else x.quiet
  else
    let m := if e = 0 then f else f + 2 ^ 23
    let (n, d) := scaled m 1 (149 - (if e = 0 then 0 else e - 1 : Nat) : Int)
    ofRatio negative n d

end Double
end RecordService
