import RecordService.Document.Json.Number

/-!
# Reading JSON

`read` turns a text into the tree that it begins with and the bytes after it. The reader keeps a
stack of the containers that are open (`Open`), so its depth is not bounded by anything but its
input. Where the text is no JSON, every open container is closed behind a `broken` leaf.

A string with an unpaired surrogate or with bytes that are not UTF-8, and a number beyond every
double, are `unreadable` leaves: they have an end but no value.

Each step of the loop but the last reads at least one byte, so the length of the text bounds them,
and what is left of that bound always exceeds the number of bytes left, which serves the strings.
-/

namespace RecordService.Json

/-- Whether a byte is white space between tokens. -/
def isSpace (b : UInt8) : Bool := b == 0x20 || b == 0x09 || b == 0x0A || b == 0x0D

/-- The bytes from the next token on. -/
def skipSpace : Bytes → Bytes
  | [] => []
  | b :: rest => if isSpace b then skipSpace rest else b :: rest

/-! ## Strings -/

/-- The number that four hexadecimal digits spell, and the bytes after them. -/
def hex4? : Bytes → Option (Nat × Bytes)
  | a :: b :: c :: d :: rest =>
    match Bytes.hexValue? (Char.ofNat a.toNat), Bytes.hexValue? (Char.ofNat b.toNat),
        Bytes.hexValue? (Char.ofNat c.toNat), Bytes.hexValue? (Char.ofNat d.toNat) with
    | some a, some b, some c, some d => some (((a * 16 + b) * 16 + c) * 16 + d, rest)
    | _, _, _, _ => none
  | _ => none

/-- The character that an escape of one letter stands for. -/
def escaped? (b : UInt8) : Option UInt8 :=
  if b = 0x22 ∨ b = 0x5C ∨ b = 0x2F then some b
  else if b = 0x62 then some 0x08
  else if b = 0x66 then some 0x0C
  else if b = 0x6E then some 0x0A
  else if b = 0x72 then some 0x0D
  else if b = 0x74 then some 0x09
  else none

/-- The low half of a surrogate pair, if an escape for one comes next. -/
def lowHalf? : Bytes → Option (Nat × Bytes)
  | 0x5C :: 0x75 :: rest =>
    (hex4? rest).bind fun (n, rest) => if 0xDC00 ≤ n ∧ n ≤ 0xDFFF then some (n, rest) else none
  | _ => none

/-- The bytes of a character, last first. -/
def charBytes (n : Nat) : Bytes := (Bytes.utf8 (String.singleton (Char.ofNat n))).reverse

/-- What a string token turned out to be: its leaf and the bytes after it, or nothing. -/
abbrev StringToken := Option (Document × Bytes)

/-- Closes a string whose bytes are held last first. -/
def closeString (done : Bytes) (sound : Bool) (rest : Bytes) : StringToken :=
  let leaf := match Bytes.text? done.reverse with
    | some s => if sound then Document.text s else Document.unreadable
    | none => Document.unreadable
  some (leaf, rest)

/-- Reads a string from behind its opening quote. The bytes read so far are held last first, and
`sound` says that no escape of an unpaired surrogate was among them. -/
def readString (done : Bytes) (sound : Bool) : (fuel : Nat) → Bytes → StringToken
  | 0, _ => none
  | _, [] => none
  | fuel + 1, b :: rest =>
    if b = 0x22 then closeString done sound rest
    else if b = 0x5C then
      match rest with
      | [] => none
      | e :: rest =>
        if e = 0x75 then
          match hex4? rest with
          | none => none
          | some (n, rest) =>
            if 0xD800 ≤ n ∧ n ≤ 0xDBFF then
              match lowHalf? rest with
              | some (m, rest) =>
                let n := 0x10000 + (n - 0xD800) * 0x400 + (m - 0xDC00)
                readString (charBytes n ++ done) sound fuel rest
              | none => readString done false fuel rest
            else if 0xDC00 ≤ n ∧ n ≤ 0xDFFF then readString done false fuel rest
            else readString (charBytes n ++ done) sound fuel rest
        else
          match escaped? e with
          | some c => readString (c :: done) sound fuel rest
          | none => none
    else if b < 0x20 then none
    else readString (b :: done) sound fuel rest

/-! ## Numbers and names -/

/-- Whether a byte is a digit. -/
def isDigitByte (b : UInt8) : Bool := 0x30 ≤ b && b ≤ 0x39

/-- A byte as a character. -/
def charOf (b : UInt8) : Char := Char.ofNat b.toNat

/-- Splits off the digits in front. -/
def spanDigits (b : Bytes) : List Char × Bytes :=
  ((b.takeWhile isDigitByte).map charOf, b.dropWhile isDigitByte)

/-- Reads the digits before the point: no zero leads others. -/
def readWhole? (b : Bytes) : Option (List Char × Bytes) :=
  match spanDigits b with
  | ([], _) => none
  | ('0' :: _ :: _, _) => none
  | found => some found

/-- Reads a point and at least one digit, if there is a point. -/
def readFraction? : Bytes → Option (Option (List Char) × Bytes)
  | 0x2E :: rest =>
    match spanDigits rest with
    | ([], _) => none
    | (ds, rest) => some (some ds, rest)
  | rest => some (none, rest)

/-- Reads the sign and the digits of an exponent. -/
def readPower? (b : Bytes) : Option (Int × Bytes) :=
  let (negative, b) := match b with
    | 0x2B :: rest => (false, rest)
    | 0x2D :: rest => (true, rest)
    | b => (false, b)
  match spanDigits b with
  | ([], _) => none
  | (ds, rest) =>
    -- beyond the cap every number is zero or greater than every double
    let n : Int := Double.cappedValue (2 ^ 31) ds
    some (if negative then -n else n, rest)

/-- Reads an exponent, if there is one. -/
def readExponent? : Bytes → Option (Option Int × Bytes)
  | b :: rest =>
    if b = 0x65 ∨ b = 0x45 then (readPower? rest).map fun (e, rest) => (some e, rest)
    else some (none, b :: rest)
  | [] => some (none, [])

/-- Reads a number token. -/
def readNumber? (b : Bytes) : Option (NumberToken × Bytes) := do
  let (negative, b) := match b with
    | 0x2D :: rest => (true, rest)
    | b => (false, b)
  let (whole, b) ← readWhole? b
  let (fraction, b) ← readFraction? b
  let (exponent, b) ← readExponent? b
  pure (⟨negative, whole, fraction, exponent⟩, b)

/-- Drops a given beginning. -/
def drop? : (start b : Bytes) → Option Bytes
  | [], b => some b
  | x :: xs, y :: ys => if x = y then drop? xs ys else none
  | _ :: _, [] => none

/-- Reads a token that is no container, which begins with the first byte. The fuel is for a string
and has to exceed the number of bytes after the first. -/
def readAtom? (fuel : Nat) (b : Bytes) : Option (Document × Bytes) :=
  match b with
  | [] => none
  | first :: rest =>
    if first = 0x22 then readString [] true fuel rest
    else if first = 0x6E then (drop? [0x75, 0x6C, 0x6C] rest).map (Document.null, ·)
    else if first = 0x74 then (drop? [0x72, 0x75, 0x65] rest).map (Document.bool true, ·)
    else if first = 0x66 then (drop? [0x61, 0x6C, 0x73, 0x65] rest).map (Document.bool false, ·)
    else (readNumber? b).map fun (t, rest) => (t.toDocument, rest)

/-! ## Containers -/

/-- A container that is open, with what was read of it, latest first. -/
inductive Open
  | list (done : List Document)
  | map (done : List (Document × Document)) (key : Document)

/-- What the reader found: a tree, and the bytes after it if the tree is whole. -/
structure Reading where
  document : Document
  rest : Option Bytes

/-- Closes the open containers around the last thing that was read. -/
def closeAll (last : Document) : List Open → Document
  | [] => last
  | .list done :: outer => closeAll (.list (last :: done).reverse) outer
  | .map done key :: outer => closeAll (.map ((key, last) :: done).reverse) outer

/-- The leaf where the text makes no sense. -/
def nothing : Document := .broken .before

/-- The tree when nothing more can be read where a value is due. -/
def stuck (stack : List Open) : Reading := ⟨closeAll nothing stack, none⟩

/-- The tree when nothing more can be read where the next item or entry is due. -/
def stuckAfter (last : Document) : List Open → Reading
  | [] => ⟨last, none⟩
  | .list done :: outer => ⟨closeAll (.list (nothing :: last :: done).reverse) outer, none⟩
  | .map done key :: outer =>
    ⟨closeAll (.map ((nothing, nothing) :: (key, last) :: done).reverse) outer, none⟩

/-- The key that stands for what is no text, which begins with the first byte. -/
def misplacedKey (fuel : Nat) (b : Bytes) : Document :=
  match b with
  | 0x5B :: _ | 0x7B :: _ => .broken .misplaced
  | b =>
    match readAtom? fuel b with
    | none | some (.unreadable, _) => nothing
    | some _ => .broken .misplaced

/-- Reads the key of an entry and the colon behind it, if there is one. The fuel has to exceed the
number of bytes after the first. -/
def readKey (fuel : Nat) (b : Bytes) : Document × Option Bytes :=
  match b with
  | 0x22 :: rest =>
    match readString [] true fuel rest with
    | none => (nothing, none)
    | some (key, rest) =>
      match skipSpace rest with
      | 0x3A :: rest => (key, some rest)
      | _ => (key, none)
  | b => (misplacedKey fuel b, none)

/-- Whether a value or the separator after one comes next. -/
inductive Due
  | value
  | separator (last : Document)

/-- Reads on from an entry of a map, which begins with the first byte. -/
def entryKey (fuel : Nat) (done : List (Document × Document)) (outer : List Open) (b : Bytes) :
    Reading ⊕ (List Open × Bytes) :=
  match readKey fuel b with
  | (key, none) => .inl ⟨closeAll (.map ((key, nothing) :: done).reverse) outer, none⟩
  | (key, some rest) => .inr (.map done key :: outer, rest)

/-- Reads on until the outermost value is closed or the text makes no sense. -/
def run : (fuel : Nat) → Due → List Open → Bytes → Reading
  | 0, _, stack, _ => stuck stack
  | fuel + 1, .value, stack, b =>
    match skipSpace b with
    | [] => stuck stack
    | first :: rest =>
      if first = 0x5B then
        match skipSpace rest with
        | 0x5D :: rest => run fuel (.separator (.list [])) stack rest
        | rest => run fuel .value (.list [] :: stack) rest
      else if first = 0x7B then
        match skipSpace rest with
        | 0x7D :: rest => run fuel (.separator (.map [])) stack rest
        | rest =>
          match entryKey fuel [] stack rest with
          | .inl reading => reading
          | .inr (stack, rest) => run fuel .value stack rest
      else
        match readAtom? fuel (first :: rest) with
        | none => stuck stack
        | some (leaf, rest) => run fuel (.separator leaf) stack rest
  | _ + 1, .separator last, [], b => ⟨last, some b⟩
  | fuel + 1, .separator last, .list done :: outer, b =>
    match skipSpace b with
    | 0x2C :: rest => run fuel .value (.list (last :: done) :: outer) rest
    | 0x5D :: rest => run fuel (.separator (.list (last :: done).reverse)) outer rest
    | _ => stuckAfter last (.list done :: outer)
  | fuel + 1, .separator last, .map done key :: outer, b =>
    match skipSpace b with
    | 0x2C :: rest =>
      match entryKey fuel ((key, last) :: done) outer (skipSpace rest) with
      | .inl reading => reading
      | .inr (stack, rest) => run fuel .value stack rest
    | 0x7D :: rest => run fuel (.separator (.map ((key, last) :: done).reverse)) outer rest
    | _ => stuckAfter last (.map done key :: outer)

/-- The tree that a text begins with, and the bytes after it. -/
def read (b : Bytes) : Reading := run (b.length + 2) .value [] b

end RecordService.Json
