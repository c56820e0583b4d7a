import RecordService.Proofs.Except
import RecordService.Proofs.Ordered
import RecordService.Proofs.Value
import RecordService.Record.Operation

/-!
# Operations up to the bits of a NaN

A NaN may go through a wire format with other bits than it came with. No operation looks at them,
so what it does to bins is the same up to the bits of NaNs.

* `Double.mergeNaN_add`: the sum of numbers that may be NaNs.
* `Bins.mergeNaN`, `Operation.mergeNaN`: one NaN in place of all.
* `Operation.apply_mergeNaN`: merging NaNs before an operation only merges them behind it.
* `Operation.applyAll_congr`: so operations that are alike do alike.
-/

namespace RecordService

/-! ## Sums -/

namespace Double

/-- The number with one NaN in place of all. -/
def mergeNaN (x : Double) : Double := if x.isNaN then nan else x

variable {x y : Double}

theorem mergeNaN_of_isNaN (h : x.isNaN) : x.mergeNaN = nan := if_pos h

theorem mergeNaN_of_not_isNaN (h : ¬x.isNaN) : x.mergeNaN = x := if_neg h

theorem isNaN_nan : nan.isNaN := by decide

theorem isNaN_quiet (h : x.isNaN) : x.quiet.isNaN := by
  have hlt : infinityMagnitude < x.magnitude := of_decide_eq_true h
  have hle : x.magnitude ≤ x.quiet.magnitude := by
    rw [magnitude, magnitude, quiet, UInt64.toNat_or, Nat.or_mod_two_pow]
    exact Nat.left_le_or
  exact decide_eq_true (Nat.lt_of_lt_of_le hlt hle)

theorem isNaN_add (h : x.isNaN ∨ y.isNaN) : (x.add y).isNaN := by
  by_cases hx : x.isNaN
  · rw [add, if_pos hx]
    exact isNaN_quiet hx
  · have hy := h.resolve_left hx
    rw [add, if_neg hx, if_pos hy]
    exact isNaN_quiet hy

theorem isNaN_mergeNaN : x.mergeNaN.isNaN = x.isNaN := by
  by_cases hx : x.isNaN
  · rw [mergeNaN_of_isNaN hx, hx, isNaN_nan]
  · rw [mergeNaN_of_not_isNaN hx]

/-- Only whether a number is a NaN counts for a sum, up to the bits of NaNs. -/
theorem mergeNaN_add (x y : Double) :
    (x.mergeNaN.add y.mergeNaN).mergeNaN = (x.add y).mergeNaN := by
  by_cases h : x.isNaN ∨ y.isNaN
  · have h' : x.mergeNaN.isNaN ∨ y.mergeNaN.isNaN := by rwa [isNaN_mergeNaN, isNaN_mergeNaN]
    rw [mergeNaN_of_isNaN (isNaN_add h), mergeNaN_of_isNaN (isNaN_add h')]
  · obtain ⟨hx, hy⟩ := not_or.mp h
    rw [mergeNaN_of_not_isNaN hx, mergeNaN_of_not_isNaN hy]

end Double

/-! ## Values and bins -/

theorem Value.isNull_mergeNaN (v : Value) : v.mergeNaN.isNull = v.isNull := by
  cases v <;> rfl

namespace Bins

/-- The bins with one NaN in place of all. -/
def mergeNaN (bins : Bins) : Bins := bins.map fun e => (e.1, e.2.mergeNaN)

theorem find?_mergeNaN (bin : String) (bins : Bins) :
    Ordered.find? bin bins.mergeNaN = (Ordered.find? bin bins).map Value.mergeNaN :=
  Ordered.find?_map _ _ _

theorem insert_mergeNaN (bin : String) (v : Value) (bins : Bins) :
    Ordered.insert bin v.mergeNaN bins.mergeNaN = mergeNaN (Ordered.insert bin v bins) :=
  Ordered.insert_map _ _ _ _

theorem erase_mergeNaN (bin : String) (bins : Bins) :
    Ordered.erase bin bins.mergeNaN = mergeNaN (Ordered.erase bin bins) :=
  Ordered.erase_map _ _ _

theorem store_mergeNaN (bin : String) (v : Value) (bins : Bins) :
    Operation.store bin v.mergeNaN bins.mergeNaN = mergeNaN (Operation.store bin v bins) := by
  unfold Operation.store
  rw [v.isNull_mergeNaN]
  split
  · exact erase_mergeNaN bin bins
  · exact insert_mergeNaN bin v bins

/-- Entries that are taken in one after the other are taken in with their NaNs merged. -/
theorem foldl_mergeNaN {f : String → Value → Bins → Bins}
    (h : ∀ bin v bins, f bin v.mergeNaN (mergeNaN bins) = mergeNaN (f bin v bins))
    (bins entries : Bins) :
    entries.mergeNaN.foldl (fun bins e => f e.1 e.2 bins) bins.mergeNaN =
      mergeNaN (entries.foldl (fun bins e => f e.1 e.2 bins) bins) := by
  induction entries generalizing bins with
  | nil => rfl
  | cons e rest ih =>
    show (mergeNaN rest).foldl _ (f e.1 e.2.mergeNaN bins.mergeNaN) = _
    rw [h, ih]
    rfl

theorem mergeNaN_mergeNaN (bins : Bins) : bins.mergeNaN.mergeNaN = bins.mergeNaN := by
  rw [mergeNaN, mergeNaN, List.map_map]
  exact List.map_congr_left fun e _ => congrArg (Prod.mk e.1) e.2.mergeNaN_mergeNaN

theorem isEmpty_mergeNaN (bins : Bins) : bins.mergeNaN.isEmpty = bins.isEmpty := by
  cases bins <;> rfl

end Bins

/-! ## Operations -/

namespace Operation

/-- The operation with its value changed, if it has one. -/
def mapValue (f : Value → Value) : Operation → Operation
  | put bin v => put bin (f v)
  | add bin v => add bin (f v)
  | op => op

/-- The operation with one NaN in place of all. -/
def mergeNaN (op : Operation) : Operation := op.mapValue Value.mergeNaN

theorem isRead_mergeNaN (op : Operation) : op.mergeNaN.isRead = op.isRead := by
  cases op <;> rfl

theorem added_mergeNaN (bin : String) (existing : Option Value) (increment : Value) :
    (added bin (existing.map Value.mergeNaN) increment.mergeNaN).map Value.mergeNaN =
      (added bin existing increment).map Value.mergeNaN := by
  cases existing with
  | none =>
    cases increment with
    | float x => exact congrArg Except.ok (Value.mergeNaN_mergeNaN (.float x))
    | _ => rfl
  | some v =>
    cases increment with
    | float y =>
      cases v with
      | float x => exact congrArg (fun x => Except.ok (Value.float x)) (x.mergeNaN_add y)
      | _ => rfl
    | _ => cases v <;> rfl

theorem joined_mergeNaN (bin : String) (existing : Option Value) (change : String → String) :
    joined bin (existing.map Value.mergeNaN) change = joined bin existing change := by
  cases existing with
  | none => rfl
  | some v => cases v <;> rfl

/-- The bins under operation with one NaN in place of all. -/
def Progress.mergeNaN (p : Progress) : Progress :=
  { p with bins := p.bins.mergeNaN, results := p.results.mergeNaN }

theorem Progress.mergeNaN_mk (bins results : Bins) (modified : Bool) :
    (Progress.mk bins.mergeNaN results.mergeNaN modified).mergeNaN =
      (Progress.mk bins results modified).mergeNaN := by
  simp only [Progress.mergeNaN, Bins.mergeNaN_mergeNaN]

/-- A value that is found for a bin is stored in it, whatever the bits of its NaNs. -/
theorem map_insert_mergeNaN {x x' : Except OperationFault Value}
    (h : x.map Value.mergeNaN = x'.map Value.mergeNaN) (bin : String) (p : Progress) :
    (x.map fun v => { p.mergeNaN with
      bins := Ordered.insert bin v p.mergeNaN.bins, modified := true }).map Progress.mergeNaN =
    (x'.map fun v => { p with
      bins := Ordered.insert bin v p.bins, modified := true }).map Progress.mergeNaN := by
  obtain ⟨e, rfl, rfl⟩ | ⟨v, v', rfl, rfl, hv⟩ := map_eq_map_cases h
  · rfl
  · have hinsert : Bins.mergeNaN (Ordered.insert bin v p.bins.mergeNaN) =
        Bins.mergeNaN (Ordered.insert bin v' p.bins) := by
      rw [← Bins.insert_mergeNaN, ← Bins.insert_mergeNaN, Bins.mergeNaN_mergeNaN, hv]
    simp only [Except.map, Progress.mergeNaN, hinsert, Bins.mergeNaN_mergeNaN]

/-- Merging NaNs before an operation only merges them behind it. -/
theorem apply_mergeNaN (p : Progress) (op : Operation) :
    (apply p.mergeNaN op.mergeNaN).map Progress.mergeNaN = (apply p op).map Progress.mergeNaN := by
  cases op with
  | put bin v =>
    show Except.ok (Progress.mk (store bin v.mergeNaN p.bins.mergeNaN) _ true).mergeNaN = _
    rw [Bins.store_mergeNaN]
    exact congrArg Except.ok (Progress.mergeNaN_mk _ _ _)
  | add bin v =>
    refine map_insert_mergeNaN ?_ bin p
    rw [Progress.mergeNaN, Bins.find?_mergeNaN]
    exact added_mergeNaN bin _ v
  | append bin s =>
    refine map_insert_mergeNaN ?_ bin p
    rw [Progress.mergeNaN, Bins.find?_mergeNaN, joined_mergeNaN]
  | prepend bin s =>
    refine map_insert_mergeNaN ?_ bin p
    rw [Progress.mergeNaN, Bins.find?_mergeNaN, joined_mergeNaN]
  | deleteBin bin =>
    show Except.ok (Progress.mk (Ordered.erase bin p.bins.mergeNaN) _ true).mergeNaN = _
    rw [Bins.erase_mergeNaN]
    exact congrArg Except.ok (Progress.mergeNaN_mk _ _ _)
  | touch => exact congrArg Except.ok (Progress.mergeNaN_mk p.bins p.results true)
  | read bin =>
    simp only [apply, mergeNaN, mapValue, Progress.mergeNaN, Bins.find?_mergeNaN]
    cases Ordered.find? bin p.bins with
    | none => exact congrArg Except.ok (Progress.mergeNaN_mk p.bins p.results p.modified)
    | some v =>
      show Except.ok
        (Progress.mk _ (Ordered.insert bin v.mergeNaN p.results.mergeNaN) _).mergeNaN = _
      rw [Bins.insert_mergeNaN]
      exact congrArg Except.ok (Progress.mergeNaN_mk _ _ _)
  | get =>
    have hget := Bins.foldl_mergeNaN Bins.insert_mergeNaN p.results p.bins
    show Except.ok (Progress.mk _ (p.bins.mergeNaN.foldl _ p.results.mergeNaN) _).mergeNaN = _
    rw [hget]
    exact congrArg Except.ok (Progress.mergeNaN_mk _ _ _)

theorem apply_congr {p p' : Progress} {op op' : Operation} (hp : p.mergeNaN = p'.mergeNaN)
    (hop : op.mergeNaN = op'.mergeNaN) :
    (apply p op).map Progress.mergeNaN = (apply p' op').map Progress.mergeNaN := by
  rw [← apply_mergeNaN, hp, hop, apply_mergeNaN]

theorem applyFrom_congr {p p' : Progress} {ops ops' : List Operation}
    (hp : p.mergeNaN = p'.mergeNaN) (hops : ops.map mergeNaN = ops'.map mergeNaN) :
    (applyFrom p ops).map Progress.mergeNaN = (applyFrom p' ops').map Progress.mergeNaN := by
  induction ops generalizing p p' ops' with
  | nil =>
    cases ops' with
    | nil => exact congrArg Except.ok hp
    | cons => cases hops
  | cons op rest ih =>
    cases ops' with
    | nil => cases hops
    | cons op' rest' =>
      obtain ⟨hop, hrest⟩ := List.cons.inj hops
      exact map_bind_congr (apply_congr hp hop) fun _ _ hq => ih hq hrest

/-- Operations that are alike do alike. -/
theorem applyAll_congr {ops ops' : List Operation} (hops : ops.map mergeNaN = ops'.map mergeNaN)
    (bins : Bins) :
    (applyAll ops bins).map Progress.mergeNaN = (applyAll ops' bins).map Progress.mergeNaN :=
  applyFrom_congr rfl hops

end Operation
end RecordService
