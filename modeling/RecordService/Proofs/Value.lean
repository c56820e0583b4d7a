import RecordService.Payload.Fault
import RecordService.Payload.Value

/-!
# What stands in a value

* `Value.Within`, `Value.Everywhere`: the parts of a value at any depth, and what holds of them all.
* `Value.induct`: induction over values. All values but lists and maps are leaves.
* `Value.WellFormed`: every map in the value has its entries in key order.
* `Value.nesting`: how many containers stand inside each other in the document of a value.
* `Value.mergeNaN`: the value with one NaN in place of all.
* `Value.Lookalike`: a map that spells a tagged value.
* `Value.Relayable`: a value that its document tells from all others.
-/

namespace RecordService

/-- A double that no JSON number tells from all others. -/
def Double.IsSpecial (x : Double) : Prop :=
  x.isNaN ∨ x.isInfinite ∨ (x.isZero ∧ x.isNegative)

instance (x : Double) : Decidable x.IsSpecial := inferInstanceAs (Decidable (_ ∨ _ ∨ _))

namespace Value

/-! ## Parts -/

/-- One value is another one, or stands in it at some depth. -/
inductive Within : Value → Value → Prop
  | self (v : Value) : Within v v
  | item {u v : Value} {items : List Value} (hv : v ∈ items) (h : Within u v) :
    Within u (.list items)
  | entry {u : Value} {e : String × Value} {entries : List (String × Value)} (he : e ∈ entries)
    (h : Within u e.2) : Within u (.map entries)

/-- A predicate holds of a value and of all that stands in it. -/
def Everywhere (P : Value → Prop) (v : Value) : Prop := ∀ u : Value, u.Within v → P u

/-- A value that has no parts but itself. -/
def IsLeaf : Value → Prop
  | list _ | map _ => False
  | _ => True

variable {P : Value → Prop} {v : Value}

/-- Induction over values. -/
@[elab_as_elim]
theorem induct {motive : Value → Prop} (leaf : ∀ v, v.IsLeaf → motive v)
    (list : ∀ items, (∀ v ∈ items, motive v) → motive (.list items))
    (map : ∀ entries, (∀ e ∈ entries, motive e.2) → motive (.map entries)) (v : Value) :
    motive v := by
  refine @Value.rec motive (fun items => ∀ v ∈ items, motive v)
    (fun entries => ∀ e ∈ entries, motive e.2) (fun e => motive e.2)
    ?_ ?_ ?_ ?_ ?_ ?_ list map ?_ ?_ ?_ ?_ ?_ ?_ v
  · exact leaf _ trivial
  · exact fun _ => leaf _ trivial
  · exact fun _ => leaf _ trivial
  · exact fun _ => leaf _ trivial
  · exact fun _ => leaf _ trivial
  · exact fun _ => leaf _ trivial
  · exact fun _ => leaf _ trivial
  · exact fun _ h => nomatch h
  · exact fun _ _ hv hrest => List.forall_mem_cons.mpr ⟨hv, hrest⟩
  · exact fun _ h => nomatch h
  · exact fun _ _ he hrest => List.forall_mem_cons.mpr ⟨he, hrest⟩
  · exact fun _ _ hv => hv

theorem Everywhere.self (h : v.Everywhere P) : P v := h v (.self v)

theorem everywhere_leaf (hv : v.IsLeaf) : v.Everywhere P ↔ P v := by
  refine ⟨Everywhere.self, fun h u hu => ?_⟩
  cases hu with
  | self => exact h
  | item => exact hv.elim
  | entry => exact hv.elim

theorem everywhere_list {items : List Value} :
    (list items).Everywhere P ↔ P (list items) ∧ ∀ v ∈ items, v.Everywhere P := by
  constructor
  · exact fun h => ⟨h.self, fun v hv u hu => h u (.item hv hu)⟩
  · rintro ⟨hself, hitems⟩ u hu
    cases hu with
    | self => exact hself
    | item hv hu => exact hitems _ hv u hu

theorem everywhere_map {entries : List (String × Value)} :
    (map entries).Everywhere P ↔ P (map entries) ∧ ∀ e ∈ entries, e.2.Everywhere P := by
  constructor
  · exact fun h => ⟨h.self, fun e he u hu => h u (.entry he hu)⟩
  · rintro ⟨hself, hentries⟩ u hu
    cases hu with
    | self => exact hself
    | entry he hu => exact hentries _ he u hu

/-- Every map in the value has its entries in key order. -/
def WellFormed (v : Value) : Prop :=
  v.Everywhere fun u => ∀ entries, u = map entries → Ordered.Sorted entries

theorem wellFormed_leaf (hv : v.IsLeaf) : v.WellFormed :=
  (everywhere_leaf hv).mpr fun _ h => by cases h; exact hv.elim

theorem wellFormed_list {items : List Value} :
    (list items).WellFormed ↔ ∀ v ∈ items, v.WellFormed := by
  simp [WellFormed, everywhere_list]

theorem wellFormed_map {entries : List (String × Value)} :
    (map entries).WellFormed ↔ Ordered.Sorted entries ∧ ∀ e ∈ entries, e.2.WellFormed := by
  simp [WellFormed, everywhere_map]

/-- A text, a byte sequence, a list or a map of which every header can tell the length. -/
def Fits : Value → Prop
  | string s | geoJson s => (Bytes.utf8 s).length < 2 ^ 32
  | blob b => b.length < 2 ^ 32
  | list items => items.length < 2 ^ 32
  | map entries =>
    entries.length < 2 ^ 32 ∧ ∀ e ∈ entries, (Bytes.utf8 e.1).length < 2 ^ 32
  | _ => True

/-! ## Nesting -/

mutual

/-- How many containers stand inside each other in the document of a value. What is written as a
map with a tag counts as one. -/
def nesting (codec : Codec) : Value → Nat
  | list items => itemsNesting codec items + 1
  | map entries => entriesNesting codec entries + 1
  | geoJson _ => 1
  | blob _ => if codec = .json then 1 else 0
  | float x => if codec = .json ∧ x.IsSpecial then 1 else 0
  | _ => 0

/-- The greatest nesting among the items of a list. -/
def itemsNesting (codec : Codec) : List Value → Nat
  | [] => 0
  | v :: rest => max (nesting codec v) (itemsNesting codec rest)

/-- The greatest nesting among the values of a map. -/
def entriesNesting (codec : Codec) : List (String × Value) → Nat
  | [] => 0
  | (_, v) :: rest => max (nesting codec v) (entriesNesting codec rest)

end

variable {codec : Codec} {n : Nat}

theorem itemsNesting_le {items : List Value} :
    itemsNesting codec items ≤ n ↔ ∀ v ∈ items, v.nesting codec ≤ n := by
  induction items with
  | nil => simp [itemsNesting]
  | cons v rest ih => rw [itemsNesting, Nat.max_le, ih, List.forall_mem_cons]

theorem entriesNesting_le {entries : List (String × Value)} :
    entriesNesting codec entries ≤ n ↔ ∀ e ∈ entries, e.2.nesting codec ≤ n := by
  induction entries with
  | nil => simp [entriesNesting]
  | cons e rest ih => rw [entriesNesting, Nat.max_le, ih, List.forall_mem_cons]

theorem nesting_list_le {items : List Value} :
    (list items).nesting codec ≤ n + 1 ↔ ∀ v ∈ items, v.nesting codec ≤ n := by
  rw [nesting, Nat.add_le_add_iff_right, itemsNesting_le]

theorem nesting_map_le {entries : List (String × Value)} :
    (map entries).nesting codec ≤ n + 1 ↔ ∀ e ∈ entries, e.2.nesting codec ≤ n := by
  rw [nesting, Nat.add_le_add_iff_right, entriesNesting_le]

/-! ## One NaN for all -/

mutual

/-- The value with one NaN in place of all. -/
def mergeNaN : Value → Value
  | float x => float (if x.isNaN then .nan else x)
  | list items => list (mergeItems items)
  | map entries => map (mergeEntries entries)
  | v => v

/-- The items of a list with one NaN in place of all. -/
def mergeItems : List Value → List Value
  | [] => []
  | v :: rest => mergeNaN v :: mergeItems rest

/-- The entries of a map with one NaN in place of all. -/
def mergeEntries : List (String × Value) → List (String × Value)
  | [] => []
  | (k, v) :: rest => (k, mergeNaN v) :: mergeEntries rest

end

theorem mergeNaN_list (items : List Value) :
    (list items).mergeNaN = list (items.map mergeNaN) := by
  rw [mergeNaN]
  congr 1
  induction items with
  | nil => rfl
  | cons v rest ih => rw [mergeItems, ih, List.map_cons]

theorem mergeNaN_map (entries : List (String × Value)) :
    (map entries).mergeNaN = map (entries.map fun e => (e.1, e.2.mergeNaN)) := by
  rw [mergeNaN]
  congr 1
  induction entries with
  | nil => rfl
  | cons e rest ih => rw [mergeEntries, ih, List.map_cons]

theorem mergeNaN_mergeNaN (v : Value) : v.mergeNaN.mergeNaN = v.mergeNaN := by
  induction v using induct with
  | leaf v hv =>
    cases v with
    | float x =>
      have hnan : Double.nan.isNaN := by decide
      rw [mergeNaN, mergeNaN]
      by_cases hx : x.isNaN
      · rw [if_pos hx, if_pos hnan]
      · rw [if_neg hx, if_neg hx]
    | list => exact hv.elim
    | map => exact hv.elim
    | _ => rfl
  | list items ih =>
    rw [mergeNaN_list, mergeNaN_list, List.map_map]
    exact congrArg list (List.map_congr_left ih)
  | map entries ih =>
    rw [mergeNaN_map, mergeNaN_map, List.map_map]
    exact congrArg map (List.map_congr_left fun e he => congrArg (Prod.mk e.1) (ih e he))

/-- What a codec tells a value from. In JSON all NaNs are one. -/
def told (codec : Codec) (v : Value) : Value :=
  match codec with
  | .json => v.mergeNaN
  | .messagePack => v

theorem told_list (codec : Codec) (items : List Value) :
    (list items).told codec = list (items.map (told codec)) := by
  cases codec with
  | json => exact mergeNaN_list items
  | messagePack => exact congrArg list (List.map_id' items).symm

theorem told_map (codec : Codec) (entries : List (String × Value)) :
    (map entries).told codec = map (entries.map fun e => (e.1, e.2.told codec)) := by
  cases codec with
  | json => exact mergeNaN_map entries
  | messagePack => exact congrArg map (List.map_id' entries).symm

/-! ## Tags -/

/-- The tags that a map can be read by. -/
def tags : List String := [bytesTag, doubleTag, geoJsonTag]

/-- A map that spells a tagged value: a tag is its only key, and a text stands under it. -/
def Lookalike (v : Value) : Prop := ∃ tag ∈ tags, ∃ body, v = map [(tag, string body)]

/-- No map in the value spells a tagged value. -/
def Untagged (v : Value) : Prop := v.Everywhere fun u => ¬u.Lookalike

/-- Every map in the value has its entries in key order, and none spells a tagged value. -/
def Relayable (v : Value) : Prop :=
  v.Everywhere fun u => ∀ entries, u = map entries → Ordered.Sorted entries ∧ ¬u.Lookalike

theorem Relayable.wellFormed (h : v.Relayable) : v.WellFormed :=
  fun u hu entries heq => (h u hu entries heq).1

theorem Relayable.untagged (h : v.Relayable) : v.Untagged := by
  rintro u hu ⟨tag, htag, body, heq⟩
  exact (h u hu _ heq).2 ⟨tag, htag, body, heq⟩

theorem relayable_leaf (hv : v.IsLeaf) : v.Relayable :=
  (everywhere_leaf hv).mpr fun _ h => by cases h; exact hv.elim

theorem relayable_list {items : List Value} :
    (list items).Relayable ↔ ∀ v ∈ items, v.Relayable := by
  simp [Relayable, everywhere_list]

theorem relayable_map {entries : List (String × Value)} :
    (map entries).Relayable ↔
      (Ordered.Sorted entries ∧ ¬(map entries).Lookalike) ∧ ∀ e ∈ entries, e.2.Relayable := by
  simp [Relayable, everywhere_map]

end Value
end RecordService
