/-!
# Association lists in key order

A finite map is a list of its entries in strictly ascending key order. The functions below keep
that order (`Sorted`); the order of `String` keys is by code point, which is also the order of
their UTF-8 encodings.

* `find?`, `insert`, `erase`: one entry.
* `ofEntries`: the map of a list of entries in any order, where the last entry of a key wins.
-/

namespace RecordService.Ordered

variable {κ α : Type} [LT κ] [DecidableLT κ] [DecidableEq κ]

/-- The keys of the entries ascend strictly. -/
def Sorted (m : List (κ × α)) : Prop := m.Pairwise fun a b => a.1 < b.1

/-- The value stored under a key. -/
def find? (k : κ) : List (κ × α) → Option α
  | [] => none
  | (k', a) :: rest => if k = k' then some a else find? k rest

/-- Stores a value under a key, in place of the one stored there. -/
def insert (k : κ) (a : α) : List (κ × α) → List (κ × α)
  | [] => [(k, a)]
  | (k', a') :: rest =>
    if k < k' then (k, a) :: (k', a') :: rest
    else if k = k' then (k, a) :: rest
    else (k', a') :: insert k a rest

/-- Drops the entry of a key. -/
def erase (k : κ) : List (κ × α) → List (κ × α)
  | [] => []
  | (k', a) :: rest => if k = k' then rest else (k', a) :: erase k rest

/-- The map of the entries, each replacing an earlier one of the same key. -/
def ofEntries (entries : List (κ × α)) : List (κ × α) :=
  entries.foldl (fun m e => insert e.1 e.2 m) []

end RecordService.Ordered
