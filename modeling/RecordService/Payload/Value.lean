import RecordService.Number.Decimal
import RecordService.Payload.Shape
import RecordService.Text.Base64
import RecordService.Value

/-!
# Values on the wire

Most values have a form of their own in both wire formats. The others are written as a map with
one entry, a tag and a text:

* `$bytes`: a byte sequence in JSON, as base64 with padding;
* `$f64`: in JSON the doubles that a JSON number cannot name, and minus zero;
* `$geojson`: a GeoJSON text, in both formats.

`Value.toDocument` writes a value and `Value.ofDocument` reads one. A map with a tag as its only
key and a text under it is read as the tagged value in either format.
-/

namespace RecordService

/-- The tag of a byte sequence. -/
def bytesTag : String := "$bytes"
/-- The tag of a double. -/
def doubleTag : String := "$f64"
/-- The tag of a GeoJSON text. -/
def geoJsonTag : String := "$geojson"

/-- The name of a double that a JSON number does not tell from others. -/
def Double.specialName? (x : Double) : Option String :=
  if x.isNaN then some "NaN"
  else if x.isInfinite then some (if x.isNegative then "-Inf" else "+Inf")
  else if x.isZero && x.isNegative then some "-0.0"
  else none

/-- The double with a special name, or else the one that a decimal text names. -/
def Double.ofName? (s : String) : Option Double :=
  if s = "NaN" then some .nan
  else if s = "+Inf" ∨ s = "Inf" then some .infinity
  else if s = "-Inf" then some .negInfinity
  else if s = "-0.0" then some .negZero
  else Double.ofText? s

namespace Value

/-- A map with one entry, a tag and a text. -/
def tagged (tag body : String) : Document := .object [(tag, .text body)]

mutual

/-- The document of a value. -/
def toDocument (codec : Codec) : Value → Document
  | null => .null
  | bool b => .bool b
  | int n => .ofInt n.toInt
  | float x =>
    match codec, x.specialName? with
    | .json, some name => tagged doubleTag name
    | _, _ => .float x
  | string s => .text s
  | blob b =>
    match codec with
    | .json => tagged bytesTag (Base64.encode .standard true b)
    | .messagePack => .bytes b
  | list items => .list (itemDocuments codec items)
  | map entries => .map (entryDocuments codec entries)
  | geoJson s => tagged geoJsonTag s

/-- The documents of the items of a list. -/
def itemDocuments (codec : Codec) : List Value → List Document
  | [] => []
  | v :: rest => toDocument codec v :: itemDocuments codec rest

/-- The documents of the entries of a map. -/
def entryDocuments (codec : Codec) : List (String × Value) → List (Document × Document)
  | [] => []
  | (k, v) :: rest => (.text k, toDocument codec v) :: entryDocuments codec rest

end

/-- The value of a map: the tagged value if its only entry is a tag with a text. -/
def ofEntries : List (String × Value) → Except Fault Value
  | [(tag, .string body)] =>
    if tag = bytesTag then
      match Base64.decode? .standard .required body with
      | some b => .ok (blob b)
      | none => .error (.mismatch .badBytes)
    else if tag = doubleTag then
      match Double.ofName? body with
      | some x => .ok (float x)
      | none => .error (.mismatch (.badDouble body))
    else if tag = geoJsonTag then .ok (geoJson body)
    else .ok (map [(tag, .string body)])
  | entries => .ok (map entries)

mutual

/-- The value of a document in which `depth` more containers may nest. -/
def ofDocument (depth : Nat) : Document → Except Fault Value
  | .null => .ok null
  | .bool b => .ok (bool b)
  | .natural _ n =>
    if n < 2 ^ 63 then .ok (int (Int64.ofNat n)) else .error (.mismatch (.tooLarge n))
  | .integer _ n => .ok (int (Int64.ofInt n))
  | .float x => .ok (float x)
  | .text s => .ok (string s)
  | .rawText b => .ok (blob b)
  | .bytes b => .ok (blob b)
  | .list items =>
    match depth with
    | 0 => .error .malformed
    | depth + 1 => (ofItems depth [] items).map list
  | .map entries =>
    match depth with
    | 0 => .error .malformed
    | depth + 1 => (ofFields depth [] entries).bind ofEntries
  | .extension _ => .error (if depth = 0 then .malformed else .other)
  | .reserved => .error .other
  | .unreadable => .error .malformed
  | .broken _ => .error .malformed

/-- The values of the items of a list, behind those found so far, which are held last first. -/
def ofItems (depth : Nat) (found : List Value) : List Document → Except Fault (List Value)
  | [] => .ok found.reverse
  | d :: rest => (ofDocument depth d).bind fun v => ofItems depth (v :: found) rest

/-- The map of the entries of a document, the last one of a key winning, on top of `found`. -/
def ofFields (depth : Nat) (found : List (String × Value)) :
    List (Document × Document) → Except Fault (List (String × Value))
  | [] => .ok found
  | (k, d) :: rest =>
    (k.asText depth).bind fun key =>
      (ofDocument depth d).bind fun v => ofFields depth (Ordered.insert key v found) rest

end

end Value

namespace Bins

/-- The document of bins: a map, never taken for a tagged value. -/
def toDocument (codec : Codec) (bins : Bins) : Document := .map (Value.entryDocuments codec bins)

/-- The bins of a document. -/
def ofDocument (depth : Nat) : Document → Except Fault Bins
  | .map entries =>
    if depth = 0 then .error .malformed else Value.ofFields (depth - 1) [] entries
  | d => .error (d.misfit depth)

end Bins
end RecordService
