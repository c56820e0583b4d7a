import RecordService.Ordered

/-!
# Laws of association lists in key order

* `find?_insert`, `find?_erase`: what a change does to a look-up. An insertion needs no order; in
  a list in order no key is left behind by an erasure.
* `Sorted.insert`, `Sorted.erase`, `sorted_ofEntries`: the order is kept.
* `find?_eq_some_iff`: in a list in order a look-up finds exactly the entries.
* `Sorted.ext`: lists in order with the same look-ups are equal.
* `Sorted.mem_front_iff`, `Sorted.filter_behind`: an entry of a list in order parts the others by
  their keys.
* `ofEntries_of_sorted`: a list in order is the map of its own entries.
-/

namespace RecordService.Ordered

variable {κ α : Type} [LT κ] [DecidableLT κ] [DecidableEq κ] {m m' : List (κ × α)}

omit [DecidableLT κ] [DecidableEq κ] in
theorem sorted_cons {e : κ × α} :
    Sorted (e :: m) ↔ (∀ x ∈ m, e.1 < x.1) ∧ Sorted m := List.pairwise_cons

omit [DecidableLT κ] [DecidableEq κ] in
theorem Sorted.filter (h : Sorted m) (p : κ × α → Bool) : Sorted (m.filter p) :=
  List.Pairwise.filter p h

omit [DecidableLT κ] [DecidableEq κ] in
theorem not_lt_self [Std.Asymm (fun a b : κ => a < b)] (a : κ) : ¬a < a :=
  fun h => Std.Asymm.asymm (r := fun a b : κ => a < b) a a h h

/-- Lists in the order of an asymmetric relation are equal if they have the same members. -/
theorem eq_of_pairwise {β : Type} {R : β → β → Prop} (hR : ∀ a b, R a b → ¬R b a)
    {l l' : List β} (h : l.Pairwise R) (h' : l'.Pairwise R) (hmem : ∀ a, a ∈ l ↔ a ∈ l') :
    l = l' := by
  have hne : ∀ a b, R a b → a ≠ b := fun a b hab heq => hR a b hab (heq ▸ heq ▸ hab)
  have hperm : l.Perm l' :=
    (List.perm_ext_iff_of_nodup (h.imp (hne _ _)) (h'.imp (hne _ _))).mpr hmem
  exact hperm.eq_of_pairwise (fun a b _ _ hab hba => absurd hba (hR a b hab)) h h'

omit [DecidableLT κ] [DecidableEq κ] in
theorem Sorted.keys_nodup [Std.Asymm (fun a b : κ => a < b)] (h : Sorted m) :
    (m.map (·.1)).Nodup := by
  refine List.pairwise_map.mpr (List.Pairwise.imp ?_ h)
  intro a b hab heq
  exact not_lt_self b.1 (heq ▸ hab)

omit [DecidableLT κ] [DecidableEq κ] in
/-- What stands before an entry of a list in order has a smaller key, and what stands behind it a
greater one. -/
theorem Sorted.around {e : κ × α} (h : Sorted (m ++ e :: m')) :
    (∀ x ∈ m, x.1 < e.1) ∧ ∀ x ∈ m', e.1 < x.1 := by
  obtain ⟨-, hback, hfront⟩ := List.pairwise_append.mp h
  exact ⟨fun x hx => hfront x hx e List.mem_cons_self, (sorted_cons.mp hback).1⟩

omit [DecidableLT κ] [DecidableEq κ] in
/-- The entries up to a given one are those whose keys are no greater. -/
theorem Sorted.mem_front_iff [Std.Asymm (fun a b : κ => a < b)] {e x : κ × α}
    (h : Sorted (m ++ e :: m')) (hx : x ∈ m ++ e :: m') : x ∈ m ++ [e] ↔ ¬e.1 < x.1 := by
  obtain ⟨hfront, hback⟩ := h.around
  constructor
  · intro hmem hlt
    rcases List.mem_append.mp hmem with hmem | hmem
    · exact Std.Asymm.asymm (r := fun a b : κ => a < b) _ _ (hfront x hmem) hlt
    · exact not_lt_self e.1 (List.mem_singleton.mp hmem ▸ hlt)
  · intro hnlt
    rcases List.mem_append.mp hx with hx | hx
    · exact List.mem_append_left _ hx
    · rcases List.mem_cons.mp hx with rfl | hx
      · exact List.mem_append_right _ List.mem_cons_self
      · exact absurd (hback x hx) hnlt

omit [DecidableEq κ] in
/-- The entries with greater keys than a given one are those behind it. -/
theorem Sorted.filter_behind [Std.Asymm (fun a b : κ => a < b)] {e : κ × α}
    (h : Sorted (m ++ e :: m')) : (m ++ e :: m').filter (fun x => e.1 < x.1) = m' := by
  obtain ⟨-, hback⟩ := h.around
  have hfront : (m ++ [e]).filter (fun x => decide (e.1 < x.1)) = [] := by
    refine List.filter_eq_nil_iff.mpr fun x hx => ?_
    have hmem : x ∈ m ++ e :: m' := by
      rw [List.append_cons]
      exact List.mem_append_left _ hx
    simpa using (h.mem_front_iff hmem).mp hx
  have hrest : m'.filter (fun x => decide (e.1 < x.1)) = m' :=
    List.filter_eq_self.mpr fun x hx => decide_eq_true (hback x hx)
  rw [List.append_cons, List.filter_append, hfront, hrest, List.nil_append]

/-! ## Look-ups -/

theorem find?_insert (k l : κ) (a : α) (m : List (κ × α)) :
    find? l (insert k a m) = if l = k then some a else find? l m := by
  induction m with
  | nil => rfl
  | cons e rest ih =>
    obtain ⟨k', a'⟩ := e
    simp only [insert]
    split
    · rfl
    · split
      · rename_i hk
        subst hk
        simp only [find?]
        split <;> rfl
      · rename_i hk
        simp only [find?, ih]
        split
        · rename_i hl
          rw [if_neg (fun hlk => hk (hlk.symm.trans hl))]
        · rfl

omit [LT κ] [DecidableLT κ] in
theorem mem_of_find? {k : κ} {a : α} (h : find? k m = some a) : (k, a) ∈ m := by
  induction m with
  | nil => cases h
  | cons e rest ih =>
    simp only [find?] at h
    split at h
    · rename_i hk
      cases h
      exact hk ▸ List.mem_cons_self
    · exact List.mem_cons_of_mem _ (ih h)

omit [LT κ] [DecidableLT κ] in
theorem find?_eq_none_iff {k : κ} : find? k m = none ↔ ∀ e ∈ m, k ≠ e.1 := by
  induction m with
  | nil => simp [find?]
  | cons e rest ih =>
    simp only [find?, List.forall_mem_cons]
    split
    · rename_i hk; simp [hk]
    · rename_i hk; simp [hk, ih]

omit [DecidableLT κ] in
/-- In a list in order a look-up finds exactly the entries. -/
theorem find?_eq_some_iff [Std.Asymm (fun a b : κ => a < b)] (h : Sorted m) {k : κ} {a : α} :
    find? k m = some a ↔ (k, a) ∈ m := by
  refine ⟨mem_of_find?, fun hm => ?_⟩
  induction m with
  | nil => cases hm
  | cons e rest ih =>
    obtain ⟨hlt, hrest⟩ := sorted_cons.mp h
    simp only [find?]
    rcases List.mem_cons.mp hm with rfl | hm
    · simp
    · have hk : k ≠ e.1 := by
        rintro rfl
        exact not_lt_self e.1 (hlt (e.1, a) hm)
      rw [if_neg hk, ih hrest hm]

omit [LT κ] [DecidableLT κ] in
theorem find?_filter_key (p : κ → Bool) (k : κ) (m : List (κ × α)) :
    find? k (m.filter fun e => p e.1) = if p k then find? k m else none := by
  induction m with
  | nil => simp [find?]
  | cons e rest ih =>
    simp only [List.filter_cons]
    by_cases hk : k = e.1
    · by_cases hp : p e.1
      · simp [find?, hk, hp]
      · rw [if_neg hp, ih, hk, if_neg hp, if_neg hp]
    · by_cases hp : p e.1
      · simp [find?, hk, hp, ih]
      · simp [find?, hk, hp, ih]

omit [DecidableLT κ] in
theorem find?_filter [Std.Asymm (fun a b : κ => a < b)] (h : Sorted m) (p : κ × α → Bool)
    (k : κ) : find? k (m.filter p) = (find? k m).filter fun a => p (k, a) := by
  refine Option.ext fun a => ?_
  rw [find?_eq_some_iff (h.filter p), Option.filter_eq_some_iff, find?_eq_some_iff h,
    List.mem_filter]

omit [LT κ] [DecidableLT κ] in
/-- A map of the values is a map of what a look-up finds. -/
theorem find?_map {β : Type} (f : α → β) (k : κ) (m : List (κ × α)) :
    find? k (m.map fun e => (e.1, f e.2)) = (find? k m).map f := by
  induction m with
  | nil => rfl
  | cons e rest ih =>
    simp only [List.map_cons, find?]
    split
    · rfl
    · exact ih

omit [DecidableLT κ] in
/-- Lists in order with the same look-ups are equal. -/
theorem Sorted.ext [Std.Asymm (fun a b : κ => a < b)] (h : Sorted m) (h' : Sorted m')
    (hf : ∀ k, find? k m = find? k m') : m = m' := by
  refine eq_of_pairwise (fun a b => ?_) h h' fun e => ?_
  · exact Std.Asymm.asymm (r := fun a b : κ => a < b) a.1 b.1
  · rw [← find?_eq_some_iff h, hf, find?_eq_some_iff h']

/-! ## Changes -/

theorem mem_insert {k : κ} {a : α} {e : κ × α} (h : e ∈ insert k a m) : e = (k, a) ∨ e ∈ m := by
  induction m with
  | nil => exact .inl (List.mem_singleton.mp h)
  | cons e' rest ih =>
    simp only [insert] at h
    split at h
    · exact List.mem_cons.mp h
    · split at h
      · exact (List.mem_cons.mp h).imp_right (List.mem_cons_of_mem _)
      · rcases List.mem_cons.mp h with rfl | h
        · exact .inr List.mem_cons_self
        · exact (ih h).imp_right (List.mem_cons_of_mem _)

/-- Of two values stored under a key the second stays. -/
theorem insert_insert [Std.Asymm (fun a b : κ => a < b)] (k : κ) (a b : α) (m : List (κ × α)) :
    insert k b (insert k a m) = insert k b m := by
  induction m with
  | nil => simp [insert, not_lt_self]
  | cons e rest ih =>
    simp only [insert]
    split
    · simp [insert, not_lt_self]
    · rename_i hlt
      split
      · simp [insert, not_lt_self]
      · rename_i hne
        simp only [insert, if_neg hlt, if_neg hne, ih]

theorem insert_map {β : Type} (f : α → β) (k : κ) (a : α) (m : List (κ × α)) :
    insert k (f a) (m.map fun e => (e.1, f e.2)) =
      (insert k a m).map fun e => (e.1, f e.2) := by
  induction m with
  | nil => rfl
  | cons e rest ih =>
    simp only [List.map_cons, insert]
    split
    · rfl
    · split
      · rfl
      · rw [ih, List.map_cons]

omit [LT κ] [DecidableLT κ] in
theorem erase_map {β : Type} (f : α → β) (k : κ) (m : List (κ × α)) :
    erase k (m.map fun e => (e.1, f e.2)) = (erase k m).map fun e => (e.1, f e.2) := by
  induction m with
  | nil => rfl
  | cons e rest ih =>
    simp only [List.map_cons, erase]
    split
    · rfl
    · rw [ih, List.map_cons]

theorem mem_foldl_insert {entries : List (κ × α)} {e : κ × α}
    (h : e ∈ entries.foldl (fun m e => insert e.1 e.2 m) m) : e ∈ entries ∨ e ∈ m := by
  induction entries generalizing m with
  | nil => exact .inr h
  | cons e' rest ih =>
    rcases ih h with h | h
    · exact .inl (List.mem_cons_of_mem _ h)
    · rcases mem_insert h with rfl | h
      · exact .inl List.mem_cons_self
      · exact .inr h

/-- The map of entries has no others. -/
theorem mem_ofEntries {entries : List (κ × α)} {e : κ × α} (h : e ∈ ofEntries entries) :
    e ∈ entries := (mem_foldl_insert h).resolve_right List.not_mem_nil

omit [LT κ] [DecidableLT κ] in
theorem erase_sublist (k : κ) (m : List (κ × α)) : (erase k m).Sublist m := by
  induction m with
  | nil => exact .slnil
  | cons e rest ih =>
    simp only [erase]
    split
    · exact List.sublist_cons_self _ _
    · exact ih.cons_cons _

omit [DecidableLT κ] in
theorem Sorted.erase (h : Sorted m) (k : κ) : Sorted (Ordered.erase k m) :=
  List.Pairwise.sublist (erase_sublist k m) h

omit [LT κ] [DecidableLT κ] in
theorem find?_erase_of_ne {k l : κ} (h : l ≠ k) (m : List (κ × α)) :
    find? l (Ordered.erase k m) = find? l m := by
  induction m with
  | nil => rfl
  | cons e rest ih =>
    simp only [Ordered.erase]
    split
    · rename_i hk
      simp [find?, hk ▸ h]
    · simp only [find?, ih]

omit [DecidableLT κ] in
/-- An erasure leaves no entry of its key, and every other one. -/
theorem find?_erase [Std.Asymm (fun a b : κ => a < b)] (h : Sorted m) (k l : κ) :
    find? l (Ordered.erase k m) = if l = k then none else find? l m := by
  induction m with
  | nil => simp [Ordered.erase, find?]
  | cons e rest ih =>
    obtain ⟨hlt, hrest⟩ := sorted_cons.mp h
    simp only [Ordered.erase]
    split
    · rename_i hk
      split
      · rename_i hl
        refine find?_eq_none_iff.mpr fun x hx hlx => ?_
        exact not_lt_self l (by simpa [← hlx, ← hk, ← hl] using hlt x hx)
      · rename_i hl
        simp [find?, hk ▸ hl]
    · rename_i hk
      simp only [find?, ih hrest]
      split
      · rename_i hl
        rw [if_neg (hl ▸ Ne.symm hk)]
      · rfl

omit [DecidableLT κ] in
/-- There is nothing to erase at a key without an entry. -/
theorem erase_of_find? [Std.Asymm (fun a b : κ => a < b)] (h : Sorted m) {k : κ}
    (hk : find? k m = none) : Ordered.erase k m = m := by
  refine (h.erase k).ext h fun l => ?_
  rw [find?_erase h]
  split
  · rename_i hl
    rw [hl, hk]
  · rfl

section StrictOrder

variable [Std.Trichotomous (fun a b : κ => a < b)]
  [Trans (fun a b : κ => a < b) (fun a b : κ => a < b) (fun a b : κ => a < b)]

theorem Sorted.insert (h : Sorted m) (k : κ) (a : α) : Sorted (Ordered.insert k a m) := by
  induction m with
  | nil => exact List.pairwise_singleton _ _
  | cons e rest ih =>
    obtain ⟨hlt, hrest⟩ := sorted_cons.mp h
    simp only [Ordered.insert]
    split
    · rename_i hk
      refine sorted_cons.mpr ⟨fun x hx => ?_, h⟩
      rcases List.mem_cons.mp hx with rfl | hx
      · exact hk
      · exact Trans.trans (r := fun a b : κ => a < b) (s := fun a b : κ => a < b) hk (hlt x hx)
    · split
      · rename_i hk
        exact sorted_cons.mpr ⟨fun x hx => hk ▸ hlt x hx, hrest⟩
      · rename_i hnlt hne
        refine sorted_cons.mpr ⟨fun x hx => ?_, ih hrest⟩
        rcases mem_insert hx with rfl | hx
        · exact Decidable.byContradiction fun hgt =>
            hne (Std.Trichotomous.trichotomous (r := fun a b : κ => a < b) _ _ hnlt hgt)
        · exact hlt x hx

theorem insert_of_find? [Std.Asymm (fun a b : κ => a < b)] (h : Sorted m) {k : κ} {a : α}
    (hk : find? k m = some a) : Ordered.insert k a m = m := by
  refine (h.insert k a).ext h fun l => ?_
  rw [find?_insert]
  split
  · rename_i hl
    rw [hl, hk]
  · rfl

theorem Sorted.foldl_insert (h : Sorted m) (entries : List (κ × α)) :
    Sorted (entries.foldl (fun m e => Ordered.insert e.1 e.2 m) m) := by
  induction entries generalizing m with
  | nil => exact h
  | cons e rest ih => exact ih (h.insert e.1 e.2)

theorem sorted_ofEntries (entries : List (κ × α)) : Sorted (ofEntries entries) :=
  Sorted.foldl_insert List.Pairwise.nil entries

end StrictOrder

/-! ## The map of entries -/

/-- An entry behind all others goes to the end. -/
theorem insert_of_forall_lt [Std.Asymm (fun a b : κ => a < b)] {k : κ} {a : α}
    (h : ∀ e ∈ m, e.1 < k) : insert k a m = m ++ [(k, a)] := by
  induction m with
  | nil => rfl
  | cons e rest ih =>
    obtain ⟨hlt, hrest⟩ := List.forall_mem_cons.mp h
    have hne : k ≠ e.1 := fun hk => not_lt_self k (hk ▸ hlt)
    have hnlt : ¬k < e.1 := fun hk => Std.Asymm.asymm (r := fun a b : κ => a < b) _ _ hlt hk
    simp [insert, hne, hnlt, ih hrest]

theorem foldl_insert_of_sorted [Std.Asymm (fun a b : κ => a < b)] {entries : List (κ × α)}
    (h : Sorted (m ++ entries)) :
    entries.foldl (fun m e => insert e.1 e.2 m) m = m ++ entries := by
  induction entries generalizing m with
  | nil => simp
  | cons e rest ih =>
    have hlast : ∀ x ∈ m, x.1 < e.1 := fun x hx =>
      (List.pairwise_append.mp h).2.2 x hx e List.mem_cons_self
    rw [List.foldl_cons, insert_of_forall_lt hlast, ih (by simpa using h)]
    simp

theorem ofEntries_of_sorted [Std.Asymm (fun a b : κ => a < b)] (h : Sorted m) :
    ofEntries m = m :=
  foldl_insert_of_sorted (m := []) h

/-- A look-up in the map of entries that agree with a function finds its value, for every key that
occurs among them. -/
theorem find?_foldl_insert {entries : List (κ × α)} {f : κ → Option α}
    (h : ∀ e ∈ entries, f e.1 = some e.2) (k : κ) :
    find? k (entries.foldl (fun m e => insert e.1 e.2 m) m) =
      if k ∈ entries.map (·.1) then f k else find? k m := by
  induction entries generalizing m with
  | nil => simp
  | cons e rest ih =>
    obtain ⟨he, hrest⟩ := List.forall_mem_cons.mp h
    rw [List.foldl_cons, ih hrest, find?_insert, List.map_cons]
    by_cases hr : k ∈ rest.map (·.1)
    · rw [if_pos hr, if_pos (List.mem_cons_of_mem _ hr)]
    · by_cases hk : k = e.1
      · rw [if_neg hr, if_pos hk, hk, if_pos List.mem_cons_self, he]
      · rw [if_neg hr, if_neg hk, if_neg (by simp [hk, hr])]

end RecordService.Ordered
