import RecordService.Proofs.Store.Run
import RecordService.Proofs.Store.Write

/-!
# Writes that expect a generation

A write may expect the generation that the record has, so that it takes effect only if nobody else
has written since that was read. A put and a delete keep to it. An operate does only where it finds
a record; where it finds none, it creates one whatever generation is expected.

* `Store.live?`: the record that calls find at a digest.
* `WriteCall.Affects`: a write creates, changes or removes a live record.
* `WriteCall.decide_guarded`: what a write with an expected generation has found.
* `WriteCall.affects_guarded`: such a write has found the generation, or is an operate that has
  found no record and created one.
* `WriteCall.operate_creates_guarded`: there are such operates, after a delete with the same
  generation.
-/

namespace RecordService

namespace Records

variable {rs : Records} {now : Instant} {d : Digest}

/-- What calls find at a digest that has been changed. -/
theorem live?_change (h : Ordered.Sorted rs) (c : Change) :
    (rs.change d c).live? now d =
      match c with
      | .keep => rs.live? now d
      | .remove => none
      | .store r => (some r).filter (·.isLive now) := by
  cases c with
  | keep => rfl
  | remove => rw [change, live?, Ordered.find?_erase h, if_pos rfl, Option.filter_none]
  | store r => rw [change, live?, Ordered.find?_insert, if_pos rfl]

end Records

/-- The record that calls find at a digest of a namespace. -/
def Store.live? (s : Store) (now : Instant) (ns : String) (d : Digest) : Option StoredRecord :=
  (s.space? ns).bind (·.live? now d)

theorem Store.WellFormed.live?_bins {s : Store} {now : Instant} {ns : String} {d : Digest}
    {r : StoredRecord} (h : s.WellFormed) (hr : s.live? now ns d = some r) :
    Ordered.Sorted r.bins := by
  obtain ⟨rs, hrs, hlive⟩ := Option.bind_eq_some_iff.mp hr
  exact (h.space? hrs).live_bins now d r hlive

/-! ## What a write has found -/

namespace Cell

variable {now : Instant} {address : Address} {options : WriteOptions} {g : UInt32}
  {live : Option StoredRecord}

theorem checkGeneration_some {actual : UInt32} (h : checkGeneration (some g) actual = .ok ()) :
    actual = g := by
  simp only [checkGeneration] at h
  split at h
  · rename_i hg
    exact hg.symm
  · cases h

/-- A put that expects a generation has found it. -/
theorem put_guarded {given : Bins} {a : Unit} {c : Change} (hg : options.generation = some g)
    (h : put now address given options live = .ok (a, c)) :
    ∃ r, live = some r ∧ r.generation = g := by
  obtain ⟨_, -, hcheck⟩ := bind_eq_ok_iff.mp (put_cases h).1
  rw [hg] at hcheck
  cases live with
  | none => cases hcheck
  | some r => exact ⟨r, rfl, checkGeneration_some hcheck⟩

/-- A delete that expects a generation has found it, or nothing that it could delete. -/
theorem delete_guarded {a : Bool} {c : Change} (hg : options.generation = some g)
    (h : delete options live = .ok (a, c)) :
    (∃ r, live = some r ∧ r.generation = g) ∨ (live = none ∧ c = .remove) := by
  obtain ⟨hc, -, hcheck⟩ := delete_cases h
  rw [hg] at hcheck
  cases live with
  | none => exact .inr ⟨rfl, hc⟩
  | some r => exact .inl ⟨r, rfl, checkGeneration_some (hcheck r rfl)⟩

/-- An operate that expects a generation has found it, or nothing. Then its operations create a
record, which begins at generation 1. -/
theorem operate_guarded {d : Digest} {ops : List Operation} {a : Record} {c : Change}
    (hg : options.generation = some g)
    (h : operate now address d ops options live = .ok (a, c)) :
    (∃ r, live = some r ∧ r.generation = g) ∨
      (live = none ∧ creates ops ∧ ∀ r, c = .store r → r.generation = 1) := by
  obtain ⟨hcheck, done, -, hc⟩ := operate_cases h
  cases live with
  | none =>
    refine .inr ⟨rfl, ?_, ?_⟩
    · cases hops : creates ops with
      | true => rfl
      | false => simp [checkOperate, hops] at hcheck
    · rintro r rfl
      obtain ⟨-, hc⟩ | ⟨-, -, hc⟩ | ⟨-, -, hc⟩ := hc <;> cases hc
      rfl
  | some r =>
    simp only [checkOperate, Option.isNone_some, Bool.false_and, Bool.false_eq_true,
      if_false] at hcheck
    obtain ⟨_, -, hcheck⟩ := bind_eq_ok_iff.mp hcheck
    rw [hg] at hcheck
    exact .inl ⟨r, rfl, checkGeneration_some hcheck⟩

end Cell

namespace WriteCall

variable {w : WriteCall} {now : Instant} {s : Store} {g : UInt32}

/-- The write creates, changes or removes a live record. -/
def Affects (w : WriteCall) (now : Instant) (s : Store) : Prop :=
  ∃ ns d, (w.run now s).2.live? now ns d ≠ s.live? now ns d

/-- Whether the write can create a record without regard to the generation that it expects. -/
def createsUnguarded : WriteCall → Bool
  | put .. | delete .. => false
  | operate _ ops _ => Cell.creates ops

/-- A write that expects a generation has found a record of that generation; or it has found none,
and removes none; or it has found none and is an operate that creates one. -/
theorem decide_guarded {live : Option StoredRecord} {a : WriteAnswer} {c : Change}
    (hg : w.options.generation = some g) (h : w.decide now live = .ok (a, c)) :
    (∃ r, live = some r ∧ r.generation = g) ∨
      (live = none ∧
        (c = .remove ∨ w.createsUnguarded ∧ ∀ r, c = .store r → r.generation = 1)) := by
  cases w with
  | put address bins options =>
    obtain ⟨⟨_, _⟩, hput, hc⟩ := map_eq_ok_iff.mp h
    exact .inl (Cell.put_guarded hg hput)
  | delete address options =>
    obtain ⟨⟨_, _⟩, hdelete, hc⟩ := map_eq_ok_iff.mp h
    cases hc
    exact (Cell.delete_guarded hg hdelete).imp_right (And.imp_right .inl)
  | operate address ops options =>
    obtain ⟨⟨_, _⟩, hoperate, hc⟩ := map_eq_ok_iff.mp h
    cases hc
    exact (Cell.operate_guarded hg hoperate).imp_right (And.imp_right .inr)

/-- A write affects no live record but the one at its address. -/
theorem Affects.at_address (h : w.Affects now s) (hwf : s.WellFormed) :
    ∃ rs a c, s.space? w.address.ns = some rs ∧ rs.WellFormed ∧
      w.decide now (rs.live? now w.address.digest) = .ok (a, c) ∧
      (w.run now s).2.live? now w.address.ns w.address.digest =
        (rs.change w.address.digest c).live? now w.address.digest ∧
      (rs.change w.address.digest c).live? now w.address.digest ≠
        rs.live? now w.address.digest := by
  obtain ⟨ns, d, hne⟩ := h
  rcases w.run_cases now s with ⟨e, hrun⟩ | ⟨doubt, rs, a, c, -, hrs, hc, hrun⟩
  · rw [hrun] at hne
    exact absurd rfl hne
  · have hafter : ∀ ns d, (w.run now s).2.live? now ns d =
        if ns = w.address.ns then (rs.change w.address.digest c).live? now d
        else s.live? now ns d := by
      intro ns d
      rw [hrun, Store.live?, Store.space?_setSpace]
      split <;> rfl
    refine ⟨rs, a, c, hrs, hwf.space? hrs, hc, by rw [hafter, if_pos rfl], fun heq => hne ?_⟩
    rw [hafter]
    split
    · rename_i hns
      rw [hns, Store.live?, hrs, Option.bind_some]
      by_cases hd : d = w.address.digest
      · rw [hd, heq]
      · exact Records.live?_change_of_ne hd c
    · rfl

/-- Where a write that expects a generation creates, changes or removes a live record, the record
at its address was live with that generation. There is one exception: an operate that has found no
live record there and created one, which begins at generation 1. -/
theorem affects_guarded (hwf : s.WellFormed) (hg : w.options.generation = some g)
    (h : w.Affects now s) :
    (∃ r, s.live? now w.address.ns w.address.digest = some r ∧ r.generation = g) ∨
      (s.live? now w.address.ns w.address.digest = none ∧ w.createsUnguarded ∧
        ∃ r, (w.run now s).2.live? now w.address.ns w.address.digest = some r ∧
          r.generation = 1) := by
  obtain ⟨rs, a, c, hrs, hwfrs, hc, hafter, hne⟩ := h.at_address hwf
  have hbefore : s.live? now w.address.ns w.address.digest =
      rs.live? now w.address.digest := by
    rw [Store.live?, hrs, Option.bind_some]
  rw [hbefore, hafter]
  rcases decide_guarded hg hc with hfound | ⟨hnone, hc⟩
  · exact .inl hfound
  · -- Nothing was found, so the write has not removed anything, and has created what there is.
    rw [Records.live?_change hwfrs.sorted, hnone] at hne
    rw [Records.live?_change hwfrs.sorted]
    refine .inr ⟨hnone, ?_⟩
    cases c with
    | keep => exact absurd rfl hne
    | remove => exact absurd rfl hne
    | store r =>
      obtain ⟨hcreates, hgen⟩ := hc.resolve_left nofun
      cases hlive : r.isLive now with
      | true => exact ⟨hcreates, r, by simp [hlive], hgen r rfl⟩
      | false => exact absurd (by simp [hlive]) hne

/-! ### After a guarded delete -/

/-- Where the one record of the example is. -/
def counterAddress : Address := ⟨"test", none, .digest oneDigest⟩

/-- A record is put, and deleted by a client that has read its generation. -/
def putAndDelete : Moment :=
  Moment.run ⟨.empty {}, 0⟩
    [.put counterAddress [("n", .int 1)] {}, .delete counterAddress { generation := some 1 }]

/-- Another client that has read the same generation now stores into the record. -/
def lateOperate : WriteCall := .operate counterAddress [.put "n" (.int 2)] { generation := some 1 }

theorem lateOperate_affects : lateOperate.Affects putAndDelete.now putAndDelete.store := by
  refine ⟨"test", oneDigest, ?_⟩
  have hbefore : putAndDelete.store.live? putAndDelete.now "test" oneDigest = none := rfl
  have hafter : ((lateOperate.run putAndDelete.now putAndDelete.store).2.live? putAndDelete.now
      "test" oneDigest).isSome := rfl
  rw [hbefore]
  exact Option.isSome_iff_ne_none.mp hafter

theorem affects_guarded_lateOperate :
    lateOperate.options.generation = some 1 ∧
      ∃ r, (lateOperate.run putAndDelete.now putAndDelete.store).2.live? putAndDelete.now "test"
        oneDigest = some r ∧ r.generation = 1 := by
  have hwf : putAndDelete.store.WellFormed := Moment.Reaches.wellFormed_of_empty ⟨_, rfl⟩
  rcases affects_guarded hwf (g := 1) rfl lateOperate_affects with ⟨r, hr, -⟩ | ⟨-, -, hcreated⟩
  · cases hr
  · exact ⟨rfl, hcreated⟩

/-- An expected generation does not keep an operate from taking effect where there is no record of
that generation. -/
theorem operate_creates_guarded :
    ¬∀ (m : Moment), Moment.Reaches ⟨.empty {}, 0⟩ m → ∀ (w : WriteCall) (g : UInt32),
      w.options.generation = some g → w.Affects m.now m.store →
        ∃ r, m.store.live? m.now w.address.ns w.address.digest = some r ∧ r.generation = g := by
  intro h
  obtain ⟨r, hr, -⟩ := h putAndDelete ⟨_, rfl⟩ lateOperate 1 rfl lateOperate_affects
  cases hr

end WriteCall
end RecordService
