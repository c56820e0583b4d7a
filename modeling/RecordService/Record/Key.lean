import RecordService.Hash.Sha256

/-!
# Keys, addresses and digests

A record lives in a namespace and, there, in a named set or in no set. Within them its key names
it. The store finds a record by its `Digest` alone: 20 bytes that are a hash of the set and the
key, or that are the key.

* `Key.hashInput?`: the bytes that are hashed for a key. They tell apart having no set, the name of
  the set, the kind of the key and the key itself.
* `Key.digest`: the digest of a key in a set.
-/

namespace RecordService

/-- The count of bytes of a digest. -/
def digestLength : Nat := 20

/-- What the store finds a record by. -/
structure Digest where
  bytes : Bytes
  length_eq : bytes.length = digestLength
  deriving DecidableEq, Repr

namespace Digest

/-- The digest that the bytes are, if there are as many as a digest has. -/
def ofBytes? (b : Bytes) : Option Digest :=
  if h : b.length = digestLength then some ⟨b, h⟩ else none

/-- Digests are ordered byte by byte. -/
instance : LT Digest := ⟨fun a b => a.bytes < b.bytes⟩

instance : DecidableLT Digest := fun a b => inferInstanceAs (Decidable (a.bytes < b.bytes))

/-- The digest of the bytes that stand for a key: the first bytes of their hash. -/
def ofHash (input : Bytes) : Digest :=
  ⟨(Sha256.hash input).take digestLength, by
    simp [digestLength, Sha256.length_hash]⟩

end Digest

/-- How the text of a key in a path is read. -/
inductive KeyType
  | string | integer | bytes | digest
  deriving DecidableEq, Repr

namespace KeyType

/-- The name of a key type in a query. -/
def name : KeyType → String
  | string => "STRING"
  | integer => "INTEGER"
  | bytes => "BYTES"
  | digest => "DIGEST"

/-- Every key type. -/
def all : List KeyType := [string, integer, bytes, digest]

/-- The key type of a name in any ASCII case. -/
def ofName? (s : String) : Option KeyType := all.find? fun t => t.name.toLower == s.toLower

end KeyType

/-- What names a record within its set. -/
inductive Key
  | string (s : String)
  | integer (n : Int64)
  | bytes (b : Bytes)
  /-- The digest itself, given instead of what it is a hash of. -/
  | digest (d : Digest)
  deriving DecidableEq, Repr

namespace Key

/-- The key type under which a key is written. -/
def keyType : Key → KeyType
  | string _ => .string
  | integer _ => .integer
  | bytes _ => .bytes
  | digest _ => .digest

/-- The text of a key in the text of an address. -/
def display : Key → String
  | string s => s
  | integer n => toString n.toInt
  | bytes b => "<" ++ toString b.length ++ " bytes>"
  | digest d => "digest:" ++ Bytes.hex d.bytes

/-- The bytes that stand for a set: a mark, and for a named set the length of its name in eight
bytes and the name. -/
def setBytes : Option String → Bytes
  | none => [0]
  | some name => 1 :: (Bytes.bigEndian 8 (Bytes.utf8 name).length ++ Bytes.utf8 name)

/-- What stands for a key: its digest, or a mark of its kind and the key. -/
def source : Key → Digest ⊕ Bytes
  | digest d => .inl d
  | string s => .inr (3 :: Bytes.utf8 s)
  | integer n => .inr (1 :: Bytes.bigEndian 8 n.toUInt64.toNat)
  | bytes b => .inr (4 :: b)

/-- The bytes that are hashed for a key in a set; none if the key is a digest. -/
def hashInput? (set : Option String) (key : Key) : Option Bytes :=
  key.source.getRight?.map (setBytes set ++ ·)

/-- The digest of a key in a set. A key that is a digest is its own, whatever the set. -/
def digestIn (set : Option String) (key : Key) : Digest :=
  match key.source with
  | .inl d => d
  | .inr b => .ofHash (setBytes set ++ b)

end Key

/-- The full name of a record. -/
structure Address where
  ns : String
  set : Option String
  key : Key
  deriving DecidableEq, Repr

namespace Address

/-- The digest of the record. -/
def digest (a : Address) : Digest := a.key.digestIn a.set

/-- The text of an address. -/
def display (a : Address) : String :=
  match a.set with
  | some set => a.ns ++ "/" ++ set ++ "/" ++ a.key.display
  | none => a.ns ++ "/" ++ a.key.display

end Address
end RecordService
