import RecordService.Bytes

/-!
# Names of tasks

A task is named by a number of 128 bits. It is written in hexadecimal, in five groups joined by
hyphens, and read in that form or without hyphens, in braces or behind `urn:uuid:`. Letters of
either case are read.
-/

namespace RecordService

/-- The name of a task. -/
structure TaskId where
  number : BitVec 128
  deriving DecidableEq, Repr

namespace TaskId

/-- The lengths of the groups of digits. -/
def groups : List Nat := [8, 4, 4, 4, 12]

/-- The text of a name. -/
def text (id : TaskId) : String :=
  let digits := (Bytes.hex (Bytes.bigEndian 16 id.number.toNat)).toList
  let cut := groups.foldl
    (fun (parts, rest) n => (parts ++ [String.ofList (rest.take n)], rest.drop n))
    (([], digits) : List String × List Char)
  "-".intercalate cut.1

/-- The name that 32 hexadecimal digits spell. -/
def ofDigits? (digits : List Char) : Option TaskId :=
  if digits.length = 32 then
    (Bytes.ofHexDigits? digits []).map fun b => ⟨BitVec.ofNat 128 (Bytes.ofBigEndian b)⟩
  else none

/-- The digits of groups of the given lengths that hyphens separate. -/
def joined? : List Nat → List Char → Option (List Char)
  | [], cs => if cs = [] then some [] else none
  | [n], cs => if cs.length = n then some cs else none
  | n :: groups, cs =>
    match cs.drop n with
    | '-' :: rest => (joined? groups rest).map (cs.take n ++ ·)
    | _ => none

/-- The name that a text in groups spells. -/
def ofGroups? (cs : List Char) : Option TaskId := (joined? groups cs).bind ofDigits?

/-- The text inside braces. -/
def unbraced? : List Char → Option (List Char)
  | '\x7b' :: rest => if rest.getLast? = some '\x7d' then some rest.dropLast else none
  | _ => none

/-- The text behind the mark of a resource name. -/
def resource? (cs : List Char) : Option (List Char) :=
  let mark := "urn:uuid:".toList
  if (cs.take mark.length).map Char.toLower = mark then some (cs.drop mark.length) else none

/-- The name that a text spells. -/
def ofText? (s : String) : Option TaskId :=
  let cs := s.toList
  match unbraced? cs, resource? cs with
  | some inner, _ => ofGroups? inner
  | none, some inner => ofGroups? inner
  | none, none => if cs.contains '-' then ofGroups? cs else ofDigits? cs

/-- The name that sixteen random bytes make. Six of their bits are replaced by marks of a random
name. -/
def ofRandom (b : Bytes) : TaskId :=
  let marked : BitVec 128 := (0xf <<< 76) ||| (0x3 <<< 62)
  let marks : BitVec 128 := (0x4 <<< 76) ||| (0x2 <<< 62)
  ⟨(BitVec.ofNat 128 (Bytes.ofBigEndian b) &&& ~~~marked) ||| marks⟩

end TaskId
end RecordService
