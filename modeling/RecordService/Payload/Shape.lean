import RecordService.Payload.Fault
import RecordService.Text.Utf8

/-!
# Fitting documents to shapes

Functions that take a document for something of a known shape. They walk it in reading order and
report the first fault they meet. `depth` is how many more containers may be opened.

* `Document.misfit`, `headerMisfit`: the fault of a document that is not what was asked for.
* `Document.asText`, `asBool`, `asNat`, `asInt`, `asList`: scalars and lists.
* `Document.survey`: passes over a document that is not looked into.
* `Document.keep`: what is left of a document that is passed over first and looked into later.
* `readFields`: the fields of a structure, given as a map in any order or as a list in order.
* `variantIndex`, `bareVariant`: one of a fixed set of names.
-/

namespace RecordService

/-- The documents that open a container. -/
def Document.opens : Document → Bool
  | .list _ | .map _ | .extension _ => true
  | _ => false

namespace Document

/-- The fault of a document that is not what was asked for. What cannot be read at all is
malformed, and so is a container where none may be opened. -/
def misfit (depth : Nat) (d : Document) : Fault :=
  match d with
  | .broken _ | .unreadable | .rawText _ => .malformed
  | d => if d.opens && depth == 0 then .malformed else .other

/-- The fault of a document that is not the number, truth value or null that was asked for. Its
header is enough to tell, whatever is behind it. -/
def headerMisfit : Document → Fault
  | .broken .before | .unreadable => .malformed
  | _ => .other

/-- A text. Bytes that are UTF-8 pass for one. -/
def asText (depth : Nat) : Document → Except Fault String
  | .text s => .ok s
  | .bytes b =>
    match Bytes.text? b with
    | some s => .ok s
    | none => .error .other
  | d => .error (d.misfit depth)

/-- A truth value. -/
def asBool : Document → Except Fault Bool
  | .bool b => .ok b
  | d => .error d.headerMisfit

/-- A whole number below a bound. -/
def asNat (bound : Nat) : Document → Except Fault Nat
  | .natural _ n => if n < bound then .ok n else .error .other
  | .integer _ n => if 0 ≤ n ∧ n < bound then .ok n.toNat else .error .other
  | .broken .inNumber => .error .malformed
  | d => .error d.headerMisfit

/-- A signed 64-bit number. -/
def asInt : Document → Except Fault Int64
  | .natural _ n => if n < 2 ^ 63 then .ok (Int64.ofNat n) else .error .other
  | .integer _ n => .ok (Int64.ofInt n)
  | .broken .inNumber => .error .malformed
  | d => .error d.headerMisfit

/-- Something that may be absent, which `null` stands for. -/
def asOption {α : Type} (read : Document → Except Fault α) : Document → Except Fault (Option α)
  | .null => .ok none
  | d => (read d).map some

/-- The items of a list, before any is looked into. Bytes pass for the list of their numbers. -/
def asItems (depth : Nat) : Document → Except Fault (List Document)
  | .list items => if depth = 0 then .error .malformed else .ok items
  | .bytes b => .ok (b.map fun x => .natural .one x.toNat)
  | d => .error (d.misfit depth)

/-- A list of things of one shape. -/
def asList {α : Type} (read : Nat → Document → Except Fault α) (depth : Nat) (d : Document) :
    Except Fault (List α) :=
  (d.asItems depth).bind fun items => items.mapM (read (depth - 1))

/-! ## Passing over -/

/-- Whether a walk that passes over a container may go on inside it. `none` is a walk without
bound. -/
def enter : Option Nat → Except Fault (Option Nat)
  | none => .ok none
  | some 0 => .error .malformed
  | some (n + 1) => .ok (some n)

mutual

/-- Passes over a document. With a bound on its depth the walk also asks that every leaf has a
value; without one it only asks that the document is whole. -/
def survey (bound : Option Nat) : Document → Except Fault Unit
  | .broken _ => .error .malformed
  | .unreadable => if bound.isNone then .ok () else .error .malformed
  | .reserved => .error .other
  | .extension complete =>
    (enter bound).bind fun _ => if complete then .ok () else .error .malformed
  | .list items => (enter bound).bind fun bound => surveyItems bound items
  | .map entries => (enter bound).bind fun bound => surveyEntries bound entries
  | .null | .bool _ | .natural _ _ | .integer _ _ | .float _ | .text _ | .rawText _ | .bytes _ =>
    .ok ()

/-- Passes over the items of a list. -/
def surveyItems (bound : Option Nat) : List Document → Except Fault Unit
  | [] => .ok ()
  | d :: rest => (survey bound d).bind fun _ => surveyItems bound rest

/-- Passes over the entries of a map. -/
def surveyEntries (bound : Option Nat) : List (Document × Document) → Except Fault Unit
  | [] => .ok ()
  | (k, d) :: rest =>
    (survey bound k).bind fun _ => (survey bound d).bind fun _ => surveyEntries bound rest

end

mutual

/-- A document that was passed over, as it is looked into later: a text that is not UTF-8 has
become a byte sequence. -/
def keep : Document → Document
  | .rawText b => .bytes b
  | .list items => .list (keepItems items)
  | .map entries => .map (keepEntries entries)
  | d => d

/-- The items of a list that was passed over. -/
def keepItems : List Document → List Document
  | [] => []
  | d :: rest => keep d :: keepItems rest

/-- The entries of a map that was passed over. -/
def keepEntries : List (Document × Document) → List (Document × Document)
  | [] => []
  | (k, d) :: rest => (keep k, keep d) :: keepEntries rest

end

/-- How far a field that a structure does not have is looked into: JSON only asks that it ends. -/
def ignoredBound (codec : Codec) (depth : Nat) : Option Nat :=
  match codec with
  | .json => none
  | .messagePack => some depth

end Document

/-! ## Structures -/

/-- Which field a key names: its place among the names, or none of them. Keys are names, and in
documents with numbered keys also the places themselves. -/
def fieldIndex (names : List String) (depth : Nat) : Document → Except Fault (Option Nat)
  | .text s => .ok (names.idxOf? s)
  | .bytes b => .ok (names.findIdx? fun n => Bytes.utf8 n == b)
  | .rawText _ => .ok none
  | .natural _ n => .ok (if n < names.length then some n else none)
  | d => .error (d.misfit depth)

/-- Reads the entries of a map as the fields of a structure. `fit` takes the document of the field
at a place into the structure under construction. -/
def readEntries {σ : Type} (codec : Codec) (names : List String)
    (fit : Nat → Nat → Document → σ → Except Fault σ) (depth : Nat) :
    (seen : List Nat) → σ → List (Document × Document) → Except Fault σ
  | _, s, [] => .ok s
  | seen, s, (k, d) :: rest =>
    (fieldIndex names depth k).bind fun
      | none =>
        (d.survey (Document.ignoredBound codec depth)).bind fun _ =>
          readEntries codec names fit depth seen s rest
      | some i =>
        if seen.contains i then .error (.mismatch (.duplicateField (names.getD i "")))
        else (fit i depth d s).bind fun s => readEntries codec names fit depth (i :: seen) s rest

/-- Reads the items of a list as the fields of a structure, from the field at place `i` on. The
list may end before any of the last `optional` fields. -/
def readItems {σ : Type} (codec : Codec) (count optional : Nat)
    (fit : Nat → Nat → Document → σ → Except Fault σ) (depth : Nat) :
    (i : Nat) → σ → List Document → Except Fault σ
  | i, s, [] => if count ≤ i + optional then .ok s else .error .other
  | i, s, d :: rest =>
    if count ≤ i then .error codec.surplus
    else (fit i depth d s).bind fun s => readItems codec count optional fit depth (i + 1) s rest

/-- Reads a structure: a map with the named fields in any order, or a list with the fields in
order, the last `optional` of which may be left out there. -/
def readFields {σ : Type} (codec : Codec) (names : List String) (optional : Nat)
    (fit : Nat → Nat → Document → σ → Except Fault σ) (start : σ) (depth : Nat) (d : Document) :
    Except Fault σ :=
  match d with
  | .map entries =>
    if depth = 0 then .error .malformed
    else readEntries codec names fit (depth - 1) [] start entries
  | d =>
    (d.asItems depth).bind fun items =>
      readItems codec names.length optional fit (depth - 1) 0 start items

/-- The field of a structure that has to be there. -/
def required {α : Type} (name : String) : Option α → Except Fault α
  | some a => .ok a
  | none => .error (.mismatch (.missingField name))

/-! ## Variants -/

/-- Which of the names a document is. In MessagePack a place among them passes for the name. -/
def variantIndex (codec : Codec) (names : List String) (depth : Nat) :
    Document → Except Fault Nat
  | .text s =>
    match names.idxOf? s with
    | some i => .ok i
    | none => .error (.mismatch (.unknownVariant s names))
  | .bytes b =>
    match names.findIdx? fun n => Bytes.utf8 n == b with
    | some i => .ok i
    | none => .error (.mismatch (.unknownVariant (Utf8.lossy b) names))
  | .natural _ n =>
    if codec = .messagePack ∧ n < names.length then .ok n else .error .other
  | .broken .misplaced => .error .other
  | d => .error (d.misfit depth)

/-- Which of the names a document is, where a name may also be the only key of a map with null
under it. In JSON nothing but a text or a map begins such a document, and nothing may follow the
entry of the map. -/
def bareVariant (codec : Codec) (names : List String) (depth : Nat) (d : Document) :
    Except Fault Nat :=
  match codec, d with
  | .messagePack, .map [(k, v)] =>
    (variantIndex codec names depth k).bind fun i =>
      match v with
      | .null => .ok i
      | v => .error v.headerMisfit
  | .messagePack, .map _ => .error .other
  | .messagePack, d => variantIndex codec names depth d
  | .json, .text s => variantIndex codec names depth (.text s)
  | .json, .map ((k, v) :: rest) =>
    (variantIndex codec names depth k).bind fun i =>
      match v with
      | .null => if rest.isEmpty then .ok i else .error .malformed
      | v => .error v.headerMisfit
  | .json, _ => .error .malformed

end RecordService
