import RecordService.Number.Double

/-!
# Documents

A `Document` is the tree that an encoded text or byte sequence spells out, in either wire format.
A reader never fails: it returns a tree, and where the input stops making sense the tree holds a
`broken` leaf. Whoever walks the tree in reading order therefore meets the faults of the input in
the order in which they stand there, and a fault behind the first shape that does not fit is
never met.

* `Document.ofInt`: the number leaf of an integer, in the least room that holds it.
-/

namespace RecordService

/-- The count of bytes in which a number is written. A number of one byte may also be part of its
own header. -/
inductive Room
  | one | two | four | eight
  deriving DecidableEq, Repr

/-- The number of bytes. -/
def Room.bytes : Room → Nat
  | .one => 1
  | .two => 2
  | .four => 4
  | .eight => 8

/-- How far the input goes where a document breaks off. -/
inductive Cut
  /-- It ends, or stops making sense, before anything of the document. -/
  | before
  /-- It ends within a number, behind a header that tells as much. -/
  | inNumber
  /-- It ends within anything else, behind the header of that. -/
  | inOther
  /-- A value that is no text stands where a name is due. -/
  | misplaced
  deriving DecidableEq, Repr

/-- What a text or byte sequence spells out. -/
inductive Document
  | null
  | bool (b : Bool)
  /-- A number from an unsigned header. -/
  | natural (room : Room) (n : Nat)
  /-- A number from a signed header. -/
  | integer (room : Room) (n : Int)
  | float (x : Double)
  | text (s : String)
  /-- A text whose bytes are not UTF-8. -/
  | rawText (b : Bytes)
  | bytes (b : Bytes)
  /-- A value of an application's own type, of which only is known whether all of it is there. -/
  | extension (complete : Bool)
  /-- The byte that no value begins with. -/
  | reserved
  | list (items : List Document)
  | map (entries : List (Document × Document))
  /-- Something well delimited that has no value, such as a number beyond every double. -/
  | unreadable
  /-- The place behind which nothing can be read. -/
  | broken (cut : Cut)
  deriving Inhabited, Repr

namespace Document

/-- The least room for a number under an unsigned header. -/
def roomOfNat (n : Nat) : Room :=
  if n < 2 ^ 8 then .one else if n < 2 ^ 16 then .two else if n < 2 ^ 32 then .four else .eight

/-- The least room for a negative number under a signed header. -/
def roomOfNegative (n : Int) : Room :=
  if -2 ^ 7 ≤ n then .one else if -2 ^ 15 ≤ n then .two else if -2 ^ 31 ≤ n then .four else .eight

/-- The leaf of an integer: unsigned unless it is negative, in the least room. -/
def ofInt (n : Int) : Document :=
  if 0 ≤ n then natural (roomOfNat n.toNat) n.toNat else integer (roomOfNegative n) n

/-- The leaf of a number that is not negative. -/
def ofNat (n : Nat) : Document := natural (roomOfNat n) n

/-- The map with the given names. -/
def object (fields : List (String × Document)) : Document :=
  map (fields.map fun f => (text f.1, f.2))

end Document
end RecordService
