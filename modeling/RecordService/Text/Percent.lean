import RecordService.Text.Utf8

/-!
# Percent escapes and form fields

* `unescape`: `%` and two hexadecimal digits stand for one byte; any other `%` stands for itself.
* `fields`: the name and value pairs of a form-encoded text, where `+` is a space and bytes that
  are not UTF-8 are replaced.
-/

namespace RecordService.Percent

open Bytes (hexValue?)

/-- The value of a hexadecimal digit given as a byte. -/
def digit? (b : UInt8) : Option Nat := hexValue? (Char.ofNat b.toNat)

/-- Replaces the escapes, with the bytes found so far held last first. -/
def unescapeFrom (done : Bytes) : Bytes → Bytes
  | [] => done.reverse
  | 0x25 :: h :: l :: rest =>
    match digit? h, digit? l with
    | some a, some b => unescapeFrom (UInt8.ofNat (16 * a + b) :: done) rest
    | _, _ => unescapeFrom (0x25 :: done) (h :: l :: rest)
  | b :: rest => unescapeFrom (b :: done) rest
termination_by b => b.length

/-- The bytes that a text with escapes stands for. -/
def unescape (s : String) : Bytes := unescapeFrom [] (Bytes.utf8 s)

/-- The text of one name or value of a form. -/
def formText (cs : List Char) : String :=
  Utf8.lossy (unescape (String.ofList (cs.map fun c => if c = '+' then ' ' else c)))

/-- Splits at every occurrence of a character. There is always at least one part. -/
def splitAll (sep : Char) : List Char → List (List Char)
  | [] => [[]]
  | c :: rest =>
    if c = sep then [] :: splitAll sep rest
    else
      match splitAll sep rest with
      | [] => [[c]]
      | part :: parts => (c :: part) :: parts

/-- The fields of a form-encoded text in order. Empty parts between `&` hold no field, and a part
without `=` is a name with an empty value. -/
def fields (s : String) : List (String × String) :=
  ((splitAll '&' s.toList).filter (· ≠ [])).map fun part =>
    (formText (part.takeWhile (· ≠ '=')), formText ((part.dropWhile (· ≠ '=')).drop 1))

end RecordService.Percent
