import RecordService.Document.Basic

/-!
# Reading MessagePack

`read` turns bytes into the tree that they begin with and the bytes after it. Like the reader of
JSON it keeps a stack of open containers; here each of them knows how many items are still to come.

* `Header`: what one header announces.
* `readHeader`: the header at the front of the bytes, or where it breaks off.
-/

namespace RecordService.MessagePack

/-- What a header announces, with what comes behind it still unread. -/
inductive Header
  | leaf (d : Document)
  | text (length : Nat)
  | bytes (length : Nat)
  | extension (length : Nat)
  | list (count : Nat)
  | map (count : Nat)

/-- Splits off `count` bytes. -/
def take? (count : Nat) (b : Bytes) : Option (Bytes × Bytes) :=
  let front := b.take count
  if front.length = count then some (front, b.drop count) else none

/-- Reads a number of `count` bytes. -/
def number? (count : Nat) (b : Bytes) : Option (Nat × Bytes) :=
  (take? count b).map fun (front, rest) => (Bytes.ofBigEndian front, rest)

/-- The signed number with the given last `bits` bits. -/
def signed (bits n : Nat) : Int := if n < 2 ^ (bits - 1) then n else n - 2 ^ bits

/-- A header with the bytes after it, or where it breaks off. -/
abbrev HeaderReading := Except Cut (Header × Bytes)

/-- Reads a number of `count` bytes that is a leaf. -/
def numberLeaf (leaf : Nat → Document) (count : Nat) (b : Bytes) : HeaderReading :=
  match number? count b with
  | some (n, rest) => .ok (.leaf (leaf n), rest)
  | none => .error .inNumber

/-- Reads an unsigned number. -/
def unsignedLeaf (room : Room) : Bytes → HeaderReading :=
  numberLeaf (.natural room) room.bytes

/-- Reads a signed number. -/
def signedLeaf (room : Room) : Bytes → HeaderReading :=
  numberLeaf (fun n => .integer room (signed (8 * room.bytes) n)) room.bytes

/-- Reads a length of `count` bytes. -/
def lengthOf (header : Nat → Header) (count : Nat) (b : Bytes) : HeaderReading :=
  match number? count b with
  | some (n, rest) => .ok (header n, rest)
  | none => .error .inOther

/-- Reads a header whose first byte is `0xC0` or greater and below `0xE0`. -/
def wideHeader (first : Nat) (rest : Bytes) : HeaderReading :=
  match first with
  | 0xC0 => .ok (.leaf .null, rest)
  | 0xC2 => .ok (.leaf (.bool false), rest)
  | 0xC3 => .ok (.leaf (.bool true), rest)
  | 0xC4 => lengthOf .bytes 1 rest
  | 0xC5 => lengthOf .bytes 2 rest
  | 0xC6 => lengthOf .bytes 4 rest
  | 0xC7 => lengthOf .extension 1 rest
  | 0xC8 => lengthOf .extension 2 rest
  | 0xC9 => lengthOf .extension 4 rest
  | 0xCA => numberLeaf (fun n => .float (Double.ofSingleBits n)) 4 rest
  | 0xCB => numberLeaf (fun n => .float ⟨UInt64.ofNat n⟩) 8 rest
  | 0xCC => unsignedLeaf .one rest
  | 0xCD => unsignedLeaf .two rest
  | 0xCE => unsignedLeaf .four rest
  | 0xCF => unsignedLeaf .eight rest
  | 0xD0 => signedLeaf .one rest
  | 0xD1 => signedLeaf .two rest
  | 0xD2 => signedLeaf .four rest
  | 0xD3 => signedLeaf .eight rest
  | 0xD4 => .ok (.extension 1, rest)
  | 0xD5 => .ok (.extension 2, rest)
  | 0xD6 => .ok (.extension 4, rest)
  | 0xD7 => .ok (.extension 8, rest)
  | 0xD8 => .ok (.extension 16, rest)
  | 0xD9 => lengthOf .text 1 rest
  | 0xDA => lengthOf .text 2 rest
  | 0xDB => lengthOf .text 4 rest
  | 0xDC => lengthOf .list 2 rest
  | 0xDD => lengthOf .list 4 rest
  | 0xDE => lengthOf .map 2 rest
  | 0xDF => lengthOf .map 4 rest
  | _ => .ok (.leaf .reserved, rest)

/-- Reads a header. -/
def readHeader : Bytes → HeaderReading
  | [] => .error .before
  | b :: rest =>
    let first := b.toNat
    if first < 0x80 then .ok (.leaf (.natural .one first), rest)
    else if first < 0x90 then .ok (.map (first - 0x80), rest)
    else if first < 0xA0 then .ok (.list (first - 0x90), rest)
    else if first < 0xC0 then .ok (.text (first - 0xA0), rest)
    else if first < 0xE0 then wideHeader first rest
    else .ok (.leaf (.integer .one ((first : Int) - 256)), rest)

/-- The leaf of the bytes of a text. -/
def textLeaf (b : Bytes) : Document :=
  match Bytes.text? b with
  | some s => .text s
  | none => .rawText b

/-- A container that is open, with the count of the items or entries still to come and what was
read of it, latest first. In a map either a key or, behind its key, a value is due. -/
inductive Open
  | list (left : Nat) (done : List Document)
  | key (left : Nat) (done : List (Document × Document))
  | value (left : Nat) (done : List (Document × Document)) (key : Document)

/-- What the reader found: a tree, and the bytes after it if the tree is whole. -/
structure Reading where
  document : Document
  rest : Option Bytes

/-- What stands for the entries of a map that never begin, given how many were still to come: one
entry, so that a map that announces a single entry is told from all others. -/
def missing (left : Nat) : List (Document × Document) :=
  if left ≤ 1 then [] else [(.broken .before, .broken .before)]

/-- Closes the open containers around the last thing that was read. -/
def closeAll (last : Document) : List Open → Document
  | [] => last
  | .list _ done :: outer => closeAll (.list (last :: done).reverse) outer
  | .key left done :: outer =>
    closeAll (.map (List.reverseAux ((last, .broken .before) :: done) (missing left))) outer
  | .value left done key :: outer =>
    closeAll (.map (List.reverseAux ((key, last) :: done) (missing left))) outer

/-- Puts a tree into the innermost open container and closes each container that it completes. The
result is the outermost tree, or the containers still open. -/
def place (d : Document) : List Open → Document ⊕ List Open
  | [] => .inl d
  | .list left done :: outer =>
    if left ≤ 1 then place (.list (d :: done).reverse) outer
    else .inr (.list (left - 1) (d :: done) :: outer)
  | .key left done :: outer => .inr (.value left done d :: outer)
  | .value left done key :: outer =>
    if left ≤ 1 then place (.map ((key, d) :: done).reverse) outer
    else .inr (.key (left - 1) ((key, d) :: done) :: outer)

/-- A tree that nothing more is to be read of, or the open containers and the bytes to read on. -/
abbrev Step := Reading ⊕ (List Open × Bytes)

/-- Places a tree that was read in full. -/
def placed (d : Document) (stack : List Open) (rest : Bytes) : Step :=
  match place d stack with
  | .inl document => .inl ⟨document, some rest⟩
  | .inr stack => .inr (stack, rest)

/-- Places a tree behind which nothing can be read. -/
def stuck (d : Document) (stack : List Open) : Step := .inl ⟨closeAll d stack, none⟩

/-- Reads one header and the leaf or the container that it opens. -/
def step (stack : List Open) (b : Bytes) : Step :=
  match readHeader b with
  | .error cut => stuck (.broken cut) stack
  | .ok (.leaf d, rest) => placed d stack rest
  | .ok (.text n, rest) =>
    match take? n rest with
    | some (front, rest) => placed (textLeaf front) stack rest
    | none => stuck (.broken .inOther) stack
  | .ok (.bytes n, rest) =>
    match take? n rest with
    | some (front, rest) => placed (.bytes front) stack rest
    | none => stuck (.broken .inOther) stack
  | .ok (.extension n, rest) =>
    match take? (n + 1) rest with
    | some (_, rest) => placed (.extension true) stack rest
    | none => stuck (.extension false) stack
  | .ok (.list n, rest) =>
    if n = 0 then placed (.list []) stack rest else .inr (.list n [] :: stack, rest)
  | .ok (.map n, rest) =>
    if n = 0 then placed (.map []) stack rest else .inr (.key n [] :: stack, rest)

/-- Reads on until the outermost tree is complete or the bytes end. -/
def run : (fuel : Nat) → List Open → Bytes → Reading
  | 0, stack, _ => ⟨closeAll (.broken .before) stack, none⟩
  | fuel + 1, stack, b =>
    match step stack b with
    | .inl reading => reading
    | .inr (stack, rest) => run fuel stack rest

/-- The tree that bytes begin with, and the bytes after it. Each step reads at least one byte. -/
def read (b : Bytes) : Reading := run (b.length + 1) [] b

end RecordService.MessagePack
