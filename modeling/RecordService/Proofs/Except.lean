/-!
# Computations that may fail

* `bind_eq_ok_iff`, `map_eq_ok_iff`, `mapError_eq_ok_iff`: when a computation that is made of
  others gives a result.
* `map_eq_map_cases`, `map_bind_congr`: computations with the same result up to what a map forgets.
* `error_or_eq_ok_iff`, `then_eq_ok_iff`: when checks pass.
* `mapM_map_eq_ok`, `forall_mem_of_mapM`: computations over a list that all give a result.
* `FailsOnly`: every failure of a computation is of a kind, by the steps of the computation.
-/

namespace RecordService

variable {ε ε' α β : Type} {x : Except ε α}

theorem bind_eq_ok_iff {f : α → Except ε β} {b : β} :
    x.bind f = .ok b ↔ ∃ a, x = .ok a ∧ f a = .ok b := by
  cases x with
  | error e =>
    refine iff_of_false nofun ?_
    rintro ⟨_, h, -⟩
    cases h
  | ok a =>
    refine ⟨fun h => ⟨a, rfl, h⟩, ?_⟩
    rintro ⟨_, h, hf⟩
    cases h
    exact hf

theorem map_eq_ok_iff {f : α → β} {b : β} : x.map f = .ok b ↔ ∃ a, x = .ok a ∧ f a = b := by
  have hmap : x.map f = x.bind fun a => .ok (f a) := by cases x <;> rfl
  simp [hmap, bind_eq_ok_iff]

theorem mapError_ok (f : ε → ε') (a : α) : (Except.ok a).mapError f = .ok a := rfl

theorem mapError_eq_ok_iff {f : ε → ε'} {a : α} : x.mapError f = .ok a ↔ x = .ok a := by
  cases x with
  | error e => exact iff_of_false nofun nofun
  | ok b => exact ⟨fun h => by cases h; rfl, fun h => by cases h; rfl⟩

/-- Computations with the same result up to what a map forgets fail alike or give results that it
does not tell apart. -/
theorem map_eq_map_cases {f : α → β} {y : Except ε α} (h : x.map f = y.map f) :
    (∃ e, x = .error e ∧ y = .error e) ∨ ∃ a b, x = .ok a ∧ y = .ok b ∧ f a = f b := by
  cases x with
  | error e =>
    cases y with
    | error e' => cases h; exact .inl ⟨e, rfl, rfl⟩
    | ok b => cases h
  | ok a =>
    cases y with
    | error e' => cases h
    | ok b => exact .inr ⟨a, b, rfl, rfl, Except.ok.inj h⟩

theorem map_bind_congr {γ δ : Type} {f : α → γ} {y : Except ε α} (h : x.map f = y.map f)
    {g g' : α → Except ε β} {k : β → δ}
    (hg : ∀ a b, f a = f b → (g a).map k = (g' b).map k) :
    (x.bind g).map k = (y.bind g').map k := by
  obtain ⟨e, rfl, rfl⟩ | ⟨a, b, rfl, rfl, hab⟩ := map_eq_map_cases h
  · rfl
  · exact hg a b hab

/-- A check passes if its first condition does not hold and the rest of it passes. -/
theorem error_or_eq_ok_iff {p : Prop} [Decidable p] {e : ε} {a : α} :
    (if p then .error e else x) = .ok a ↔ ¬p ∧ x = .ok a := by
  by_cases hp : p <;> simp [hp]

/-- Two checks after each other pass if both do. -/
theorem then_eq_ok_iff {y z : Except ε Unit} :
    (y.bind fun _ => z) = .ok () ↔ y = .ok () ∧ z = .ok () := by
  rw [bind_eq_ok_iff]
  exact ⟨fun ⟨_, hy, hz⟩ => ⟨hy, hz⟩, fun ⟨hy, hz⟩ => ⟨(), hy, hz⟩⟩

theorem mapM_map_eq_ok {γ : Type} {f : α → β} {g : β → Except ε γ} {k : α → γ} {xs : List α}
    (h : ∀ x ∈ xs, g (f x) = .ok (k x)) : (xs.map f).mapM g = .ok (xs.map k) := by
  induction xs with
  | nil => rfl
  | cons x rest ih =>
    obtain ⟨hx, hrest⟩ := List.forall_mem_cons.mp h
    rw [List.map_cons, List.mapM_cons, hx, ih hrest]
    rfl

/-- All results over a list have what each of them has. -/
theorem forall_mem_of_mapM {f : α → Except ε β} {P : β → Prop} (hf : ∀ a b, f a = .ok b → P b)
    {xs : List α} {ys : List β} (h : xs.mapM f = .ok ys) : ∀ y ∈ ys, P y := by
  induction xs generalizing ys with
  | nil =>
    cases h
    exact List.forall_mem_nil _
  | cons x rest ih =>
    rw [List.mapM_cons] at h
    obtain ⟨y, hy, h⟩ := bind_eq_ok_iff.mp h
    obtain ⟨rest', hrest, h⟩ := bind_eq_ok_iff.mp h
    cases h
    exact List.forall_mem_cons.mpr ⟨hf x y hy, ih hrest⟩

/-! ## Failures -/

/-- Every failure of a computation is of a kind. -/
def FailsOnly (P : ε → Prop) (x : Except ε α) : Prop := ∀ e, x = .error e → P e

section

variable {P : ε → Prop}

theorem failsOnly_ok (a : α) : FailsOnly P (.ok a : Except ε α) := nofun

theorem failsOnly_error {e : ε} (h : P e) : FailsOnly P (.error e : Except ε α) := by
  intro e' he
  cases he
  exact h

theorem FailsOnly.bind {f : α → Except ε β} (hx : FailsOnly P x) (hf : ∀ a, FailsOnly P (f a)) :
    FailsOnly P (x.bind f) := by
  cases x with
  | error e => exact failsOnly_error (hx e rfl)
  | ok a => exact hf a

theorem FailsOnly.map {f : α → β} (hx : FailsOnly P x) : FailsOnly P (x.map f) := by
  cases x with
  | error e => exact failsOnly_error (hx e rfl)
  | ok a => exact failsOnly_ok (f a)

theorem FailsOnly.mapError {Q : ε' → Prop} {f : ε → ε'} (hx : FailsOnly P x)
    (hf : ∀ e, P e → Q (f e)) : FailsOnly Q (x.mapError f) := by
  cases x with
  | error e => exact failsOnly_error (hf e (hx e rfl))
  | ok a => exact failsOnly_ok a

theorem FailsOnly.ite {p : Prop} [Decidable p] {y : Except ε α} (hx : p → FailsOnly P x)
    (hy : ¬p → FailsOnly P y) : FailsOnly P (if p then x else y) := by
  split
  · exact hx (by assumption)
  · exact hy (by assumption)

theorem failsOnly_mapM {f : α → Except ε β} (hf : ∀ a, FailsOnly P (f a)) (xs : List α) :
    FailsOnly P (xs.mapM f) := by
  induction xs with
  | nil => exact failsOnly_ok []
  | cons x rest ih =>
    rw [List.mapM_cons]
    exact .bind (hf x) fun _ => .bind ih fun _ => failsOnly_ok _

end

end RecordService
