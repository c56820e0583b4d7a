/-!
# Byte sequences

* `utf8`, `text?`: the bytes of a text and the text of bytes, when they are UTF-8.
* `bigEndian`, `ofBigEndian`: numbers in a fixed count of bytes, most significant first.
* `hex`, `ofHex?`: two lower-case digits per byte, and back (either case).
-/

namespace RecordService

/-- Powers with a natural exponent are those of the core library, also where an algebra library
offers others. -/
@[default_instance high]
instance (priority := 2000) corePow {α : Type u} [NatPow α] : Pow α Nat := instPowNat

/-- A finite sequence of bytes, first byte first. -/
abbrev Bytes := List UInt8

namespace Bytes

/-- The UTF-8 encoding of a text. -/
def utf8 (s : String) : Bytes := s.toByteArray.data.toList

/-- The text whose UTF-8 encoding the bytes are, if they are one. -/
def text? (b : Bytes) : Option String := String.fromUTF8? ⟨b.toArray⟩

theorem text?_utf8 (s : String) : text? (utf8 s) = some s := by
  simp only [text?, utf8, String.fromUTF8?, Array.toArray_toList]
  exact dif_pos s.isValidUTF8

/-- The last `count` base-256 digits of `n`, most significant first. -/
def bigEndian : (count : Nat) → (n : Nat) → Bytes
  | 0, _ => []
  | count + 1, n => bigEndian count (n / 256) ++ [UInt8.ofNat n]

theorem length_bigEndian (count n : Nat) : (bigEndian count n).length = count := by
  induction count generalizing n with
  | zero => rfl
  | succ count ih => simp [bigEndian, ih]

/-- The number whose base-256 digits are the bytes, most significant first. -/
def ofBigEndian (b : Bytes) : Nat := b.foldl (fun n x => n * 256 + x.toNat) 0

/-- The hexadecimal digit of a number below 16, in lower case. -/
def hexDigit (n : Nat) : Char := if n < 10 then Char.ofNat (48 + n) else Char.ofNat (87 + n)

/-- The value of a hexadecimal digit in either case. -/
def hexValue? (c : Char) : Option Nat :=
  if '0' ≤ c ∧ c ≤ '9' then some (c.toNat - 48)
  else if 'a' ≤ c ∧ c ≤ 'f' then some (c.toNat - 87)
  else if 'A' ≤ c ∧ c ≤ 'F' then some (c.toNat - 55)
  else none

/-- Two lower-case hexadecimal digits per byte. -/
def hex (b : Bytes) : String :=
  String.ofList (b.flatMap fun x => [hexDigit (x.toNat / 16), hexDigit (x.toNat % 16)])

/-- Reads pairs of hexadecimal digits, the bytes read so far held last first. -/
def ofHexDigits? : List Char → Bytes → Option Bytes
  | [], done => some done.reverse
  | [_], _ => none
  | h :: l :: rest, done =>
    match hexValue? h, hexValue? l with
    | some a, some b => ofHexDigits? rest (UInt8.ofNat (16 * a + b) :: done)
    | _, _ => none

/-- The bytes written as pairs of hexadecimal digits. -/
def ofHex? (s : String) : Option Bytes := ofHexDigits? s.toList []

end Bytes
end RecordService
