import RecordService.Bytes

/-!
# Base64

Three bytes are four symbols of six bits each. The last one or two bytes of a sequence are two or
three symbols, whose spare bits are zero, and may be filled up to four with `=`.

* `Alphabet`: the two alphabets differ in their last two symbols.
* `Padding`: whether the filling is required, may be absent or shortened, or is refused.
* `encode`, `decode?`: bytes to symbols and back. A symbol outside the alphabet, a lone last
  symbol, spare bits that are not zero and misplaced filling are refused.
-/

namespace RecordService.Base64

/-- The two symbols that the usual alphabets disagree on. -/
structure Alphabet where
  symbol62 : Char
  symbol63 : Char
  deriving DecidableEq, Repr

/-- The alphabet that ends in `+` and `/`. -/
def Alphabet.standard : Alphabet := ⟨'+', '/'⟩

/-- The alphabet that ends in `-` and `_`, which need no escape in a path. -/
def Alphabet.url : Alphabet := ⟨'-', '_'⟩

/-- What a reader expects after a last group of two or three symbols. -/
inductive Padding
  /-- The group is filled up to four. -/
  | required
  /-- The group is filled in full, in part or not at all. -/
  | optional
  /-- The group is not filled. -/
  | absent
  deriving DecidableEq, Repr

/-- The symbol of a number below 64. -/
def symbol (a : Alphabet) (n : Nat) : Char :=
  if n < 26 then Char.ofNat (65 + n)
  else if n < 52 then Char.ofNat (71 + n)
  else if n < 62 then Char.ofNat (n - 4)
  else if n = 62 then a.symbol62
  else a.symbol63

/-- The number of a symbol. -/
def index? (a : Alphabet) (c : Char) : Option Nat :=
  if 'A' ≤ c ∧ c ≤ 'Z' then some (c.toNat - 65)
  else if 'a' ≤ c ∧ c ≤ 'z' then some (c.toNat - 71)
  else if '0' ≤ c ∧ c ≤ '9' then some (c.toNat + 4)
  else if c = a.symbol62 then some 62
  else if c = a.symbol63 then some 63
  else none

/-- The symbols of the bytes, without filling. -/
def symbols (a : Alphabet) : Bytes → List Char
  | [] => []
  | [x] => [symbol a (x.toNat / 4), symbol a (x.toNat % 4 * 16)]
  | [x, y] =>
    [symbol a (x.toNat / 4), symbol a (x.toNat % 4 * 16 + y.toNat / 16),
      symbol a (y.toNat % 16 * 4)]
  | x :: y :: z :: rest =>
    symbol a (x.toNat / 4) :: symbol a (x.toNat % 4 * 16 + y.toNat / 16) ::
      symbol a (y.toNat % 16 * 4 + z.toNat / 64) :: symbol a (z.toNat % 64) :: symbols a rest

/-- The symbols of the bytes; with `fill`, the last group is filled up to four. -/
def encode (a : Alphabet) (fill : Bool) (b : Bytes) : String :=
  let padding := if fill then List.replicate ((3 - b.length % 3) % 3) '=' else []
  String.ofList (symbols a b ++ padding)

/-- The bytes of the numbers of the symbols, if the last group is whole and its spare bits are
zero. The bytes read so far are held last first. -/
def bytesOf? : List Nat → Bytes → Option Bytes
  | [], done => some done.reverse
  | [_], _ => none
  | [p, q], done =>
    if q % 16 = 0 then some (UInt8.ofNat (p * 4 + q / 16) :: done).reverse else none
  | [p, q, r], done =>
    if r % 4 = 0 then
      some (UInt8.ofNat (q % 16 * 16 + r / 4) :: UInt8.ofNat (p * 4 + q / 16) :: done).reverse
    else none
  | p :: q :: r :: s :: rest, done =>
    bytesOf? rest (UInt8.ofNat (r % 4 * 64 + s) :: UInt8.ofNat (q % 16 * 16 + r / 4) ::
      UInt8.ofNat (p * 4 + q / 16) :: done)

/-- Whether `filling` characters may follow `count` symbols. -/
def Padding.allows (p : Padding) (count filling : Nat) : Bool :=
  let room := (4 - count % 4) % 4
  match p with
  | .required => filling = room
  | .optional => filling ≤ room
  | .absent => filling = 0

/-- The bytes that a text spells. -/
def decode? (a : Alphabet) (p : Padding) (s : String) : Option Bytes :=
  let cs := s.toList
  let body := cs.takeWhile (· ≠ '=')
  let filling := cs.dropWhile (· ≠ '=')
  if filling.all (· = '=') && p.allows body.length filling.length then
    (body.mapM (index? a)).bind (bytesOf? · [])
  else none

end RecordService.Base64
