import RecordService.Number.Double
import RecordService.Ordered

/-!
# Values

A bin of a record holds a `Value`: a scalar, a byte sequence, a GeoJSON text, or a list or map of
values. The entries of a map are in key order, each key once (`RecordService.Ordered`).

* `Value.same`: equality of values. Floats are compared as numbers, so a NaN is equal to nothing
  and the two zeros are equal; a value of one kind never equals one of another.
-/

namespace RecordService

/-- What a bin can hold. -/
inductive Value
  | null
  | bool (b : Bool)
  | int (n : Int64)
  | float (x : Double)
  | string (s : String)
  | blob (b : Bytes)
  | list (items : List Value)
  | map (entries : List (String × Value))
  | geoJson (s : String)
  deriving Inhabited, Repr

/-- The bins of a record: a map from bin names to values, in name order. -/
abbrev Bins := List (String × Value)

namespace Value

/-- The name of the kind of a value. -/
def kindName : Value → String
  | null => "Null"
  | bool _ => "Bool"
  | int _ => "Int"
  | float _ => "Float"
  | string _ => "String"
  | blob _ => "Blob"
  | list _ => "List"
  | map _ => "Map"
  | geoJson _ => "GeoJson"

/-- Whether the value is the null value. -/
def isNull : Value → Bool
  | null => true
  | _ => false

/-- The boolean that the value is. -/
def bool? : Value → Option Bool
  | bool b => some b
  | _ => none

/-- The integer that the value is. -/
def int? : Value → Option Int64
  | int n => some n
  | _ => none

/-- The double that the value is. -/
def float? : Value → Option Double
  | float x => some x
  | _ => none

/-- The text that the value is. A GeoJSON value is not a text. -/
def string? : Value → Option String
  | string s => some s
  | _ => none

/-- The bytes that the value is. -/
def blob? : Value → Option Bytes
  | blob b => some b
  | _ => none

/-- The items of the list that the value is. -/
def list? : Value → Option (List Value)
  | list items => some items
  | _ => none

/-- The entries of the map that the value is. -/
def map? : Value → Option (List (String × Value))
  | map entries => some entries
  | _ => none

mutual

/-- Equality of values, with floats compared as numbers. -/
def same : Value → Value → Bool
  | null, null => true
  | bool a, bool b => a == b
  | int a, int b => a == b
  | float a, float b => Double.same a b
  | string a, string b => a == b
  | blob a, blob b => a == b
  | list a, list b => sameItems a b
  | map a, map b => sameEntries a b
  | geoJson a, geoJson b => a == b
  | _, _ => false

/-- Equality of lists, item by item. -/
def sameItems : List Value → List Value → Bool
  | [], [] => true
  | a :: as, b :: bs => same a b && sameItems as bs
  | _, _ => false

/-- Equality of maps, entry by entry. -/
def sameEntries : List (String × Value) → List (String × Value) → Bool
  | [], [] => true
  | (k, a) :: as, (l, b) :: bs => k == l && same a b && sameEntries as bs
  | _, _ => false

end

end Value
end RecordService
