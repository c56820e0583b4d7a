import RecordService.Document.Basic

/-!
# Writing MessagePack

`print` writes a document with the shortest header for each length, doubles in full and numbers in
the room that their leaf names. A reserved or broken leaf has no bytes; no document that is sent
holds one.
-/

namespace RecordService.MessagePack

/-- A header of `code` for a number of `count` bytes. -/
def wide (code : UInt8) (count n : Nat) : Bytes := code :: Bytes.bigEndian count n

/-- The header of a text. -/
def textHeader (n : Nat) : Bytes :=
  if n < 32 then [UInt8.ofNat (0xA0 + n)]
  else if n < 2 ^ 8 then wide 0xD9 1 n
  else if n < 2 ^ 16 then wide 0xDA 2 n
  else wide 0xDB 4 n

/-- The header of a byte sequence. -/
def bytesHeader (n : Nat) : Bytes :=
  if n < 2 ^ 8 then wide 0xC4 1 n else if n < 2 ^ 16 then wide 0xC5 2 n else wide 0xC6 4 n

/-- The header of a list. -/
def listHeader (n : Nat) : Bytes :=
  if n < 16 then [UInt8.ofNat (0x90 + n)]
  else if n < 2 ^ 16 then wide 0xDC 2 n
  else wide 0xDD 4 n

/-- The header of a map. -/
def mapHeader (n : Nat) : Bytes :=
  if n < 16 then [UInt8.ofNat (0x80 + n)]
  else if n < 2 ^ 16 then wide 0xDE 2 n
  else wide 0xDF 4 n

/-- A number under an unsigned header. -/
def naturalBytes (room : Room) (n : Nat) : Bytes :=
  match room with
  | .one => if n < 128 then [UInt8.ofNat n] else wide 0xCC 1 n
  | .two => wide 0xCD 2 n
  | .four => wide 0xCE 4 n
  | .eight => wide 0xCF 8 n

/-- A number under a signed header. -/
def integerBytes (room : Room) (n : Int) : Bytes :=
  let low (count : Nat) : Nat := (n % (256 ^ count : Nat)).toNat
  match room with
  | .one => if -32 ≤ n ∧ n < 0 then [UInt8.ofNat (low 1)] else wide 0xD0 1 (low 1)
  | .two => wide 0xD1 2 (low 2)
  | .four => wide 0xD2 4 (low 4)
  | .eight => wide 0xD3 8 (low 8)

mutual

/-- The bytes of a document. -/
def print : Document → Bytes
  | .null => [0xC0]
  | .bool false => [0xC2]
  | .bool true => [0xC3]
  | .natural room n => naturalBytes room n
  | .integer room n => integerBytes room n
  | .float x => wide 0xCB 8 x.bits.toNat
  | .text s => let b := Bytes.utf8 s; textHeader b.length ++ b
  | .rawText b => textHeader b.length ++ b
  | .bytes b => bytesHeader b.length ++ b
  | .list items => listHeader items.length ++ printItems items
  | .map entries => mapHeader entries.length ++ printEntries entries
  | .extension _ | .reserved | .unreadable | .broken _ => []

/-- The bytes of the items of a list. -/
def printItems : List Document → Bytes
  | [] => []
  | item :: rest => print item ++ printItems rest

/-- The bytes of the entries of a map. -/
def printEntries : List (Document × Document) → Bytes
  | [] => []
  | (key, value) :: rest => print key ++ (print value ++ printEntries rest)

end

end RecordService.MessagePack
