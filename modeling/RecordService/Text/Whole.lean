import RecordService.Bytes

/-!
# Whole numbers in decimal

* `digits?`: a non-empty run of ASCII digits.
* `natural?`: an optional `+`, then digits, below a bound.
* `signed64?`: an optional sign, then digits, within 64 bits.
-/

namespace RecordService.Text

/-- Whether a character is one of `0` to `9`. -/
def isDigit (c : Char) : Bool := '0' ≤ c && c ≤ '9'

/-- The number that the ASCII digits spell, continued from `n`. -/
def digitsFrom? (n : Nat) : List Char → Option Nat
  | [] => some n
  | c :: rest => if isDigit c then digitsFrom? (10 * n + (c.toNat - 48)) rest else none

/-- The number that a non-empty run of ASCII digits spells. -/
def digits? : List Char → Option Nat
  | [] => none
  | cs => digitsFrom? 0 cs

/-- A number below `bound`, as digits after an optional plus sign. -/
def natural? (bound : Nat) (s : String) : Option Nat :=
  let cs := match s.toList with
    | '+' :: rest => rest
    | cs => cs
  (digits? cs).bind fun n => if n < bound then some n else none

/-- A signed 64-bit number, as digits after an optional sign. -/
def signed64? (s : String) : Option Int64 :=
  let value? : Option Int := match s.toList with
    | '+' :: rest => (digits? rest).map Int.ofNat
    | '-' :: rest => (digits? rest).map fun n => -Int.ofNat n
    | cs => (digits? cs).map Int.ofNat
  value?.bind fun n =>
    if -2 ^ 63 ≤ n ∧ n < 2 ^ 63 then some (Int64.ofInt n) else none

end RecordService.Text
