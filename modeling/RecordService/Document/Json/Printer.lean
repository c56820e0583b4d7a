import RecordService.Document.Json.Number

/-!
# Writing JSON

`print` writes a document without white space. In a string only the quote, the backslash and the
control characters are escaped. Leaves that JSON has no form for are written as `null`, and bytes
as a list of numbers; no document that is sent holds any of them.
-/

namespace RecordService.Json

/-- The bytes of a byte inside a string. -/
def escape (b : UInt8) : Bytes :=
  if b = 0x22 then [0x5C, 0x22]
  else if b = 0x5C then [0x5C, 0x5C]
  else if b = 0x08 then [0x5C, 0x62]
  else if b = 0x0C then [0x5C, 0x66]
  else if b = 0x0A then [0x5C, 0x6E]
  else if b = 0x0D then [0x5C, 0x72]
  else if b = 0x09 then [0x5C, 0x74]
  else if b < 0x20 then
    [0x5C, 0x75, 0x30, 0x30, UInt8.ofNat (0x30 + b.toNat / 16),
      UInt8.ofNat (Bytes.hexDigit (b.toNat % 16)).toNat]
  else [b]

/-- A string token. -/
def quoted (s : String) : Bytes := 0x22 :: ((Bytes.utf8 s).flatMap escape ++ [0x22])

/-- The token of `null`. -/
def nullToken : Bytes := Bytes.utf8 "null"

/-- The items, each but the first behind a comma. -/
def separated : List Bytes → Bytes
  | [] => []
  | [item] => item
  | item :: rest => item ++ 0x2C :: separated rest

mutual

/-- The text of a document. -/
def print : Document → Bytes
  | .bool true => Bytes.utf8 "true"
  | .bool false => Bytes.utf8 "false"
  | .natural _ n => Bytes.utf8 (toString n)
  | .integer _ n => Bytes.utf8 (toString n)
  | .float x => Bytes.utf8 (numberText x)
  | .text s => quoted s
  | .bytes b => 0x5B :: (separated (b.map fun x => Bytes.utf8 (toString x.toNat)) ++ [0x5D])
  | .list items => 0x5B :: (separated (printItems items) ++ [0x5D])
  | .map entries => 0x7B :: (separated (printEntries entries) ++ [0x7D])
  | .null | .rawText _ | .extension _ | .reserved | .unreadable | .broken _ => nullToken

/-- The texts of the items of a list. -/
def printItems : List Document → List Bytes
  | [] => []
  | item :: rest => print item :: printItems rest

/-- The texts of the entries of a map. -/
def printEntries : List (Document × Document) → List Bytes
  | [] => []
  | (key, value) :: rest => (print key ++ 0x3A :: print value) :: printEntries rest

end

end RecordService.Json
