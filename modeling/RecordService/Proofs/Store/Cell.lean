import RecordService.Proofs.Except
import RecordService.Store.Cell

/-!
# What a write decides

A write that is not refused keeps the record that it has found, removes it, or stores one in its
place. Which of these, and what is stored, is said here once for each kind of write.

* `Cell.put_cases`: a put stores its bins, and removes a record that would have none.
* `Cell.delete_cases`: a delete removes.
* `Cell.operate_cases`: an operate keeps the record if its operations only report, and otherwise
  stores what they come to.
* `Cell.applyJob_cases`: a job stores what its operations come to.
-/

namespace RecordService.Cell

variable {now : Instant} {address : Address} {options : WriteOptions} {ops : List Operation}
  {live : Option StoredRecord} {r : StoredRecord} {c : Change}

theorem put_cases {given : Bins} {a : Unit}
    (h : put now address given options live = .ok (a, c)) :
    checkPut live options = .ok () ∧
      ((putBins live options.mode given = [] ∧ c = .remove) ∨
        (putBins live options.mode given ≠ [] ∧
          c = .store ⟨address.set, storedKey address.key, putBins live options.mode given,
            (live.map (·.generation)).getD 0 + 1,
            expiry options.ttl (live.bind (·.expiresAt)) now⟩)) := by
  obtain ⟨_, hcheck, h⟩ := map_eq_ok_iff.mp h
  refine ⟨hcheck, ?_⟩
  simp only [] at h
  split at h
  · rename_i hnone
    cases h
    exact .inl ⟨List.isEmpty_iff.mp hnone, rfl⟩
  · rename_i hsome
    cases h
    refine .inr ⟨fun hnone => hsome (List.isEmpty_iff.mpr hnone), ?_⟩
    cases live <;> rfl

theorem delete_cases {a : Bool} (h : delete options live = .ok (a, c)) :
    c = .remove ∧ a = live.isSome ∧
      ∀ r ∈ live, checkGeneration options.generation r.generation = .ok () := by
  cases live with
  | none =>
    cases h
    exact ⟨rfl, rfl, nofun⟩
  | some r =>
    obtain ⟨_, hcheck, h⟩ := map_eq_ok_iff.mp h
    cases h
    refine ⟨rfl, rfl, fun r' hr' => ?_⟩
    cases hr'
    exact hcheck

theorem operate_cases {d : Digest} {a : Record}
    (h : operate now address d ops options live = .ok (a, c)) :
    checkOperate live ops options = .ok () ∧
      ∃ done, Operation.applyAll ops (live.getD (fresh address)).bins = .ok done ∧
        ((done.modified = false ∧ c = .keep) ∨
          (done.modified = true ∧ done.bins = [] ∧ c = .remove) ∨
          (done.modified = true ∧ done.bins ≠ [] ∧
            c = .store (modified now options done.bins (live.getD (fresh address))))) := by
  obtain ⟨_, hcheck, h⟩ := bind_eq_ok_iff.mp h
  refine ⟨hcheck, ?_⟩
  simp only [] at h
  cases hdone : Operation.applyAll ops (live.getD (fresh address)).bins with
  | error why =>
    rw [hdone] at h
    cases h
  | ok done =>
    refine ⟨done, rfl, ?_⟩
    rw [hdone] at h
    cases hmodified : done.modified with
    | false =>
      simp only [hmodified, Bool.not_false, if_true] at h
      cases h
      exact .inl ⟨rfl, rfl⟩
    | true =>
      simp only [hmodified, Bool.not_true, Bool.false_eq_true, if_false] at h
      cases h
      by_cases hbins : done.bins = []
      · exact .inr (.inl ⟨rfl, hbins, if_pos (List.isEmpty_iff.mpr hbins)⟩)
      · exact .inr (.inr ⟨rfl, hbins, if_neg fun hnone => hbins (List.isEmpty_iff.mp hnone)⟩)

theorem applyJob_cases (h : applyJob ops r = .ok c) :
    ∃ done, Operation.applyAll ops r.bins = .ok done ∧
      ((done.bins = [] ∧ c = .remove) ∨
        (done.bins ≠ [] ∧
          c = .store { r with bins := done.bins, generation := r.generation + 1 })) := by
  rw [applyJob] at h
  cases hdone : Operation.applyAll ops r.bins with
  | error why =>
    rw [hdone] at h
    cases h
  | ok done =>
    refine ⟨done, rfl, ?_⟩
    rw [hdone] at h
    cases h
    by_cases hbins : done.bins = []
    · exact .inl ⟨hbins, if_pos (List.isEmpty_iff.mpr hbins)⟩
    · exact .inr ⟨hbins, if_neg fun hnone => hbins (List.isEmpty_iff.mp hnone)⟩

end RecordService.Cell
