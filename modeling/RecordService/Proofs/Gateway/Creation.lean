import RecordService.Gateway.Basic
import RecordService.Proofs.Store.Filed
import RecordService.Proofs.Store.Purge

/-!
# What has been created can be read

A record is created with those of its bins that are not null. If there are any, it can be read at
once, in its first generation. If there are none, the creation succeeds and there is no record: the
check that there is a bin does not look at the values.

* `Cell.merge_nil`: bins that are written where there were none.
* `StoredRecord.remaining_expiry`: a record lives for as long as was asked for.
* `Gateway.createRecord_cases`: what a creation does that succeeds.
* `Gateway.getRecord_createRecord`: what is read after it.
* `Gateway.read_of_creation`: so it is in every state that a store can come to.
* `Gateway.creation_of_nulls`: a record that was created and is not there.
-/

namespace RecordService

/-- The bins with a value. -/
def Bins.withValues (bins : Bins) : Bins := bins.filter fun e => !e.2.isNull

namespace Cell

/-- Bins are written behind smaller ones as they are, without the null ones. -/
theorem merge_eq_append {bins given : Bins} (h : Ordered.Sorted (bins ++ given)) :
    merge bins given = bins ++ given.withValues := by
  induction given generalizing bins with
  | nil => exact (List.append_nil bins).symm
  | cons e rest ih =>
    have hlast : ∀ x ∈ bins, x.1 < e.1 := fun x hx =>
      (List.pairwise_append.mp h).2.2 x hx e List.mem_cons_self
    have hstep : merge bins (e :: rest) = merge (Operation.store e.1 e.2 bins) rest := rfl
    rw [hstep]
    cases hnull : e.2.isNull with
    | true =>
      have hsorted : Ordered.Sorted bins := (List.pairwise_append.mp h).1
      have hmissing : Ordered.find? e.1 bins = none :=
        Ordered.find?_eq_none_iff.mpr fun x hx heq => Ordered.not_lt_self e.1 (heq ▸ hlast x hx)
      have hkept : (Bins.withValues (e :: rest)) = Bins.withValues rest :=
        List.filter_cons_of_neg (by simp [hnull])
      rw [Operation.store, if_pos hnull, Ordered.erase_of_find? hsorted hmissing, hkept]
      exact ih (h.sublist ((List.sublist_cons_self e rest).append_left bins))
    | false =>
      have hkept : (Bins.withValues (e :: rest)) = e :: Bins.withValues rest :=
        List.filter_cons_of_pos (by simp [hnull])
      have happend : bins ++ e :: rest = bins ++ [e] ++ rest := List.append_cons bins e rest
      rw [Operation.store, if_neg (by simp [hnull]), Ordered.insert_of_forall_lt hlast, hkept,
        List.append_cons bins e (Bins.withValues rest)]
      exact ih (happend ▸ h)

theorem merge_nil {given : Bins} (h : Ordered.Sorted given) : merge [] given = given.withValues :=
  merge_eq_append h

theorem checkPut_createOnly {live : Option StoredRecord} {ttl : Option UInt32}
    (h : checkPut live ⟨.createOnly, none, ttl⟩ = .ok ()) : live = none := by
  cases live with
  | none => rfl
  | some r => cases h

/-- What becomes of the record that is created: without a value there is none. -/
def created (now : Instant) (address : Address) (given : Bins) (ttl : Option UInt32) : Change :=
  if merge [] given = [] then .remove
  else .store ⟨address.set, storedKey address.key, merge [] given, 1, expiry ttl none now⟩

/-- A creation finds no record. -/
theorem put_createOnly {now : Instant} {address : Address} {given : Bins} {ttl : Option UInt32}
    {live : Option StoredRecord} {a : Unit} {c : Change}
    (h : put now address given ⟨.createOnly, none, ttl⟩ live = .ok (a, c)) :
    c = created now address given ttl := by
  obtain ⟨hcheck, hchange⟩ := put_cases h
  obtain rfl := checkPut_createOnly hcheck
  rcases hchange with ⟨hnone, rfl⟩ | ⟨hsome, rfl⟩
  · exact (if_pos hnone).symm
  · exact (if_neg hsome).symm

end Cell

/-- A record that is stored now lives for as many seconds as was asked for, or for ever. -/
theorem StoredRecord.remaining_expiry {r : StoredRecord} {now : Instant} {ttl : Option UInt32}
    (h : r.expiresAt = Cell.expiry ttl none now) : r.remaining now = ttl.filter (· ≠ 0) := by
  unfold remaining
  rw [h]
  cases ttl with
  | none => rfl
  | some seconds =>
    -- A time of no seconds stands for a record that does not expire.
    by_cases hzero : seconds = 0
    · rw [hzero]
      rfl
    · have hpos : seconds.toNat ≠ 0 := fun h0 => hzero (UInt32.toNat_inj.mp h0)
      have hlt : seconds.toNat < 2 ^ 32 := seconds.toNat_lt
      have hspan : now + 1000 * (seconds.toNat : Int) - now = seconds.toNat * 1000 := by
        rw [Int.add_comm, Int.add_sub_cancel, Int.mul_comm]
      have hseconds : Int.tdiv (seconds.toNat * 1000) 1000 = seconds.toNat :=
        Int.mul_tdiv_cancel _ (by decide)
      have hlow : max 1 (seconds.toNat : Int) = seconds.toNat := by omega
      have hhigh : min (seconds.toNat : Int) (2 ^ 32 - 1) = seconds.toNat :=
        Int.min_eq_left (by omega)
      have hkept : (some seconds).filter (· ≠ 0) = some seconds :=
        Option.filter_some_pos (decide_eq_true hzero)
      rw [hkept]
      simp only [Cell.expiry, if_neg hzero, Option.map_some, hspan, hseconds, hlow, hhigh,
        Int.toNat_natCast, UInt32.ofNat_toNat]

/-- A read finds nothing where there is no live record. -/
theorem Store.get_of_missing {s : Store} {rs : Records} (haccess : s.accessRead = .ok ())
    (now : Instant) (address : Address) (hrs : s.space? address.ns = some rs)
    (hr : rs.live? now address.digest = none) : s.get now address {} = .error .recordNotFound := by
  unfold Store.get
  rw [haccess, space_eq_ok_iff.mpr hrs]
  simp only [bind, Except.bind, hr]

namespace Gateway

variable {g : Gateway} {now : Instant} {address : Address} {bins : Bins} {ttl : Option UInt32}

/-- A creation that succeeds has met no fault, and what becomes of its record is stored. -/
theorem createRecord_cases (h : (g.createRecord now address bins ttl).1 = .ok ()) :
    ∃ rs, g.store.access = .ok false ∧ g.store.space? address.ns = some rs ∧
      (g.createRecord now address bins ttl).2.store =
        g.store.setSpace address.ns
          (rs.change address.digest (Cell.created now address bins ttl)) := by
  unfold createRecord putRecord at h ⊢
  split at h
  · cases h
  · rename_i hbins
    rw [if_neg hbins]
    have hput : (g.store.put now address bins ⟨.createOnly, none, ttl⟩).1 = .ok () :=
      mapError_eq_ok_iff.mp h
    unfold ofStoreCall Store.put at *
    rcases g.store.write_cases now address (Cell.put now address bins ⟨.createOnly, none, ttl⟩) with
      ⟨e, hrefused⟩ | ⟨doubt, rs, _, c, haccess, hrs, hc, happlied⟩
    · rw [hrefused] at hput
      cases hput
    · rw [happlied] at hput ⊢
      cases doubt with
      | true => cases hput
      | false => exact ⟨rs, haccess, hrs, by rw [Cell.put_createOnly hc]⟩

/-- After a creation that succeeds a read at the same time answers the bins that have values, in the
first generation, and the time to live if one was given. Where no bin has a value, there is no
record. -/
theorem getRecord_createRecord (hg : g.store.WellFormed) (hbins : Ordered.Sorted bins)
    (h : (g.createRecord now address bins ttl).1 = .ok ()) :
    (g.createRecord now address bins ttl).2.getRecord now address none none =
      if bins.withValues = [] then .error .recordNotFound
      else .ok ⟨address, address.digest, bins.withValues, 1, ttl.filter (· ≠ 0)⟩ := by
  obtain ⟨rs, haccess, hrs, hstore⟩ := createRecord_cases h
  have hread : (g.createRecord now address bins ttl).2.store.accessRead = .ok () := by
    rw [hstore]
    show g.store.access.bind _ = _
    rw [haccess]
    rfl
  have hspace : (g.createRecord now address bins ttl).2.store.space? address.ns =
      some (rs.change address.digest (Cell.created now address bins ttl)) := by
    rw [hstore, Store.space?_setSpace, if_pos rfl]
  -- The read goes to the digest that has just been changed, so only the change counts.
  have hlive : (rs.change address.digest (Cell.created now address bins ttl)).live? now
      address.digest = _ := Records.live?_change (hg.space? hrs).sorted _
  unfold Cell.created at hlive hspace
  rw [Cell.merge_nil hbins] at hlive hspace
  by_cases hnone : bins.withValues = []
  · rw [if_pos hnone] at hlive hspace ⊢
    unfold getRecord
    rw [Store.get_of_missing hread now address hspace hlive]
    rfl
  · rw [if_neg hnone] at hlive hspace ⊢
    let r : StoredRecord := ⟨address.set, Cell.storedKey address.key, bins.withValues, 1,
      Cell.expiry ttl none now⟩
    have hnow : r.isLive now := StoredRecord.isLive_iff.mpr (Cell.lt_expiry nofun)
    have hremaining : r.remaining now = ttl.filter (· ≠ 0) := StoredRecord.remaining_expiry rfl
    have hfound := hlive.trans (Option.filter_some_pos hnow)
    unfold getRecord
    rw [Store.get_of_live hread now address hspace hfound, ← hremaining]
    rfl

/-- In any state of a store that began empty, whatever clients and jobs have done, a record that has
been created can be read as it was given, if there is anything to read in it. A creation whose bins
are all null succeeds as well, and leaves no record. -/
theorem read_of_creation {settings : StoreSettings} {start : Instant} {m : Moment}
    (hm : Moment.Reaches ⟨.empty settings, start⟩ m) (hg : g.store = m.store)
    (hbins : Ordered.Sorted bins) (h : (g.createRecord now address bins ttl).1 = .ok ()) :
    (bins.withValues ≠ [] →
      (g.createRecord now address bins ttl).2.getRecord now address none none =
        .ok ⟨address, address.digest, bins.withValues, 1, ttl.filter (· ≠ 0)⟩) ∧
      (bins.withValues = [] →
        (g.createRecord now address bins ttl).2.getRecord now address none none =
          .error .recordNotFound) := by
  have hread := getRecord_createRecord (hg ▸ hm.wellFormed_of_empty) hbins h
  exact ⟨fun hsome => hread.trans (if_neg hsome), fun hnone => hread.trans (if_pos hnone)⟩

/-! ### A record with its predecessor, and one without bins -/

/-- A record has been there, and its time is over. -/
def afterExpiry : Moment :=
  Moment.run ⟨.empty {}, 0⟩ [.put Moment.keyed [("old", .int 1)] { ttl := some 1 }, .clock 5000]

/-- A gateway before a store. -/
def before (s : Store) : Gateway := { ofSettings {} {} {} with store := s }

theorem read_of_creation_afterExpiry :
    let g := before afterExpiry.store
    let bins : Bins := [("gone", .null), ("n", .int 3)]
    Ordered.Sorted bins ∧ (g.createRecord 5000 Moment.keyed bins (some 60)).1 = .ok () ∧
      (g.createRecord 5000 Moment.keyed bins (some 60)).2.getRecord 5000 Moment.keyed none none =
        .ok ⟨Moment.keyed, Moment.keyed.digest, [("n", .int 3)], 1, some 60⟩ := by
  intro g bins
  have hbins : Ordered.Sorted bins := List.pairwise_pair.mpr (by decide)
  have hcreated : (g.createRecord 5000 Moment.keyed bins (some 60)).1 = .ok () := by
    simp only [g, before, afterExpiry, Moment.run, List.foldl_cons, List.foldl_nil, Moment.after,
      createRecord, putRecord, ofStoreCall, Store.put, Store.write, Moment.digest_keyed]
    rfl
  exact ⟨hbins, hcreated, (read_of_creation ⟨_, rfl⟩ rfl hbins hcreated).1 (by decide)⟩

/-- A record can be created without a bin that has a value, and is then not there. -/
theorem creation_of_nulls :
    ¬∀ (m : Moment), Moment.Reaches ⟨.empty {}, 0⟩ m → ∀ (address : Address) (bins : Bins),
      Ordered.Sorted bins → ((before m.store).createRecord m.now address bins none).1 = .ok () →
        ((before m.store).createRecord m.now address bins none).2.getRecord m.now address none
          none = .ok ⟨address, address.digest, bins.withValues, 1, none⟩ := by
  intro h
  have hreach : Moment.Reaches ⟨.empty {}, 0⟩ ⟨.empty {}, 0⟩ := ⟨[], rfl⟩
  have hbins : Ordered.Sorted ([("n", .null)] : Bins) := List.pairwise_singleton _ _
  have hcreated : ((before (.empty {})).createRecord 0 Moment.keyed [("n", .null)] none).1 =
      .ok () := rfl
  have hread := getRecord_createRecord (g := before (.empty {})) (Store.empty_wellFormed {}) hbins
    hcreated
  have hfound := hread.symm.trans (h _ hreach Moment.keyed _ hbins hcreated)
  cases hfound

end Gateway
end RecordService
