import RecordService.Proofs.Job.Log
import RecordService.Proofs.Scan.Page

/-!
# Where records lie

A record that has bins, none of them null, and that lies at the digest of its own set and key is
filed. Whatever writes to a record, it stores a filed one, so all the records of a store that began
empty are. A scan names a record by its own set and key, and a read of that name finds it.

* `Operation.apply_bins`: all that an operation can do to bins.
* `Operation.applyFrom_holds`, `Cell.putBins_holds`: a property of the values that are given and of
  those that operations make is one of all bins.
* `Store.Each`, `Store.Replays.each`: a property of all stored records, kept by a log of changes.
* `StoredRecord.Filed`, `Effect.Valid.filed`: the invariant.
* `Moment.Reaches.all_filed`: it holds after any run, and a scan and a read agree on every record.
-/

namespace RecordService

/-- The values that operations make of others: numbers and texts. -/
def Value.isMade : Value → Bool
  | int _ | float _ | string _ => true
  | _ => false

theorem Value.isNull_of_isMade {v : Value} (h : v.isMade) : v.isNull = false := by
  cases v with
  | null => cases h
  | _ => rfl

/-! ## Bins -/

namespace Operation

variable {p q : Progress} {op : Operation} {ops : List Operation} {bin : String} {v : Value}
  {existing : Option Value} {P : Value → Prop}

theorem store_holds {bins : Bins} (hv : v.isNull = false → P v) (h : ∀ e ∈ bins, P e.2) :
    ∀ e ∈ store bin v bins, P e.2 := by
  intro e he
  unfold store at he
  split at he
  · exact h e ((Ordered.erase_sublist bin bins).subset he)
  · rename_i hnull
    rcases Ordered.mem_insert he with rfl | he
    · exact hv (Bool.eq_false_iff.mpr hnull)
    · exact h e he

theorem isMade_of_added {increment : Value} (h : added bin existing increment = .ok v) :
    v.isMade := by
  unfold added at h
  split at h
  · cases h; rfl
  · cases h; rfl
  · split at h
    · cases h; rfl
    · cases h
  · cases h; rfl
  · cases h
  · cases h
  · cases h

theorem isMade_of_joined {f : String → String} (h : joined bin existing f = .ok v) :
    v.isMade := by
  unfold joined at h
  split at h
  · cases h; rfl
  · cases h; rfl
  · cases h

/-- An operation leaves the bins, removes one, or stores a value into one: a value that is put and
is not null, or one that the operation makes. -/
theorem apply_bins (h : apply p op = .ok q) :
    q.bins = p.bins ∨ (∃ bin, q.bins = Ordered.erase bin p.bins) ∨
      ∃ bin v, q.bins = Ordered.insert bin v p.bins ∧
        ((op = .put bin v ∧ v.isNull = false) ∨ v.isMade) := by
  cases op with
  | put bin v =>
    cases h
    cases hv : v.isNull with
    | true => exact .inr (.inl ⟨bin, if_pos hv⟩)
    | false =>
      refine .inr (.inr ⟨bin, v, if_neg ?_, .inl ⟨rfl, hv⟩⟩)
      rw [hv]
      exact Bool.false_ne_true
  | add bin increment =>
    obtain ⟨v, hv, rfl⟩ := map_eq_ok_iff.mp h
    exact .inr (.inr ⟨bin, v, rfl, .inr (isMade_of_added hv)⟩)
  | append bin text =>
    obtain ⟨v, hv, rfl⟩ := map_eq_ok_iff.mp h
    exact .inr (.inr ⟨bin, v, rfl, .inr (isMade_of_joined hv)⟩)
  | prepend bin text =>
    obtain ⟨v, hv, rfl⟩ := map_eq_ok_iff.mp h
    exact .inr (.inr ⟨bin, v, rfl, .inr (isMade_of_joined hv)⟩)
  | deleteBin bin =>
    cases h
    exact .inr (.inl ⟨bin, rfl⟩)
  | touch =>
    cases h
    exact .inl rfl
  | read bin =>
    simp only [apply] at h
    split at h <;> cases h <;> exact .inl rfl
  | get =>
    cases h
    exact .inl rfl

theorem apply_holds (hmade : ∀ v, v.isMade → P v)
    (hput : ∀ bin v, op = .put bin v → v.isNull = false → P v) (hp : ∀ e ∈ p.bins, P e.2)
    (h : apply p op = .ok q) : ∀ e ∈ q.bins, P e.2 := by
  intro e he
  rcases apply_bins h with hbins | ⟨bin, hbins⟩ | ⟨bin, v, hbins, hv⟩
  · exact hp e (hbins ▸ he)
  · rw [hbins] at he
    exact hp e ((Ordered.erase_sublist bin p.bins).subset he)
  · rw [hbins] at he
    rcases Ordered.mem_insert he with rfl | he
    · rcases hv with ⟨hop, hnull⟩ | hv
      · exact hput bin v hop hnull
      · exact hmade v hv
    · exact hp e he

theorem applyFrom_holds (hmade : ∀ v, v.isMade → P v)
    (hput : ∀ bin v, .put bin v ∈ ops → v.isNull = false → P v) (hp : ∀ e ∈ p.bins, P e.2)
    (h : applyFrom p ops = .ok q) : ∀ e ∈ q.bins, P e.2 := by
  induction ops generalizing p with
  | nil =>
    cases h
    exact hp
  | cons op rest ih =>
    obtain ⟨p', hp', h⟩ := bind_eq_ok_iff.mp h
    refine ih (fun bin v hmem => hput bin v (List.mem_cons_of_mem _ hmem)) ?_ h
    exact apply_holds hmade (fun bin v hop => hput bin v (hop ▸ List.mem_cons_self)) hp hp'

end Operation

namespace Cell

variable {bins given : Bins} {live : Option StoredRecord} {P : Value → Prop}

theorem merge_holds (hgiven : ∀ e ∈ given, e.2.isNull = false → P e.2) (h : ∀ e ∈ bins, P e.2) :
    ∀ e ∈ merge bins given, P e.2 := by
  unfold merge
  induction given generalizing bins with
  | nil => exact h
  | cons x rest ih =>
    obtain ⟨hx, hrest⟩ := List.forall_mem_cons.mp hgiven
    exact ih hrest (Operation.store_holds hx h)

theorem putBins_holds (hgiven : ∀ e ∈ given, e.2.isNull = false → P e.2)
    (hlive : ∀ r ∈ live, ∀ e ∈ r.bins, P e.2) (mode : WriteMode) :
    ∀ e ∈ putBins live mode given, P e.2 := by
  unfold putBins
  split
  · refine merge_holds hgiven ?_
    split
    · exact List.forall_mem_nil _
    · exact hlive _ rfl
  · exact merge_holds hgiven (List.forall_mem_nil _)

end Cell

/-! ## All stored records -/

/-- What a change leaves was there, or it is what the change stores. -/
theorem Records.mem_change {rs : Records} {d : Digest} {c : Change} {e : Digest × StoredRecord}
    (h : e ∈ rs.change d c) : e ∈ rs ∨ ∃ r, c = .store r ∧ e = (d, r) := by
  cases c with
  | keep => exact .inl h
  | remove => exact .inl ((Ordered.erase_sublist d rs).subset h)
  | store r =>
    rcases Ordered.mem_insert h with rfl | h
    · exact .inr ⟨r, rfl, rfl⟩
    · exact .inl h

namespace Store

variable {s t : Store} {P : Digest → StoredRecord → Prop}

/-- Every stored record, expired or not, has a property, which may be one of where it lies. -/
def Each (P : Digest → StoredRecord → Prop) (s : Store) : Prop :=
  ∀ ns rs, s.space? ns = some rs → ∀ e ∈ rs, P e.1 e.2

theorem Each.of_spaces (h : s.Each P) (hst : s.spaces = t.spaces) : t.Each P := by
  intro ns rs hrs
  rw [space?, ← hst] at hrs
  exact h ns rs hrs

theorem Each.setSpace (h : s.Each P) (ns : String) {rs : Records} (hrs : ∀ e ∈ rs, P e.1 e.2) :
    (s.setSpace ns rs).Each P := by
  intro ns' rs' hrs' e he
  rw [space?_setSpace] at hrs'
  split at hrs'
  · cases hrs'
    exact hrs e he
  · exact h ns' rs' hrs' e he

theorem empty_each (settings : StoreSettings) (P : Digest → StoredRecord → Prop) :
    (empty settings).Each P := by
  intro ns rs hrs e he
  have hmem : (ns, rs) ∈ settings.namespaces.map fun ns => (ns, ([] : Records)) :=
    Ordered.mem_ofEntries (Ordered.mem_of_find? hrs)
  obtain ⟨_, -, heq⟩ := List.mem_map.mp hmem
  obtain rfl := (Prod.mk.inj heq).2
  cases he

end Store

theorem Effect.each_replay {s : Store} {x : Effect} {P : Digest → StoredRecord → Prop}
    (h : s.Each P) (hstored : ∀ r, x.change = .store r → P x.digest r) : (x.replay s).Each P := by
  unfold replay
  cases hx : s.space? x.ns with
  | none => exact h
  | some rs =>
    refine h.setSpace x.ns fun e he => ?_
    rcases Records.mem_change he with he | ⟨r, hr, rfl⟩
    · exact h x.ns rs hx e he
    · exact hstored r hr

/-- A log of changes keeps a property of all records if each change stores a record that has it
where it has found one. -/
theorem Store.Replays.each {s : Store} {xs : List Effect} {P : Digest → StoredRecord → Prop}
    (h : s.Replays xs) (hs : s.Each P)
    (hstored : ∀ s x r, Effect.Valid s x → x.change = .store r → (∀ r' ∈ x.found, P x.digest r') →
      P x.digest r) : (xs.foldl Effect.replay s).Each P := by
  induction xs generalizing s with
  | nil => exact hs
  | cons x rest ih =>
    refine ih h.2 (Effect.each_replay hs fun r hr => hstored s x r h.1 hr fun r' hr' => ?_)
    obtain ⟨rs, hrs, hmem, -⟩ := h.1.mem_of_found hr'
    exact hs x.ns rs hrs (x.digest, r') hmem

/-- So it holds at all times in a store that began empty. -/
theorem Moment.each_of_empty {settings : StoreSettings} {start : Instant} {m : Moment}
    {P : Digest → StoredRecord → Prop} (h : Reaches ⟨.empty settings, start⟩ m)
    (hstored : ∀ s x r, Effect.Valid s x → x.change = .store r → (∀ r' ∈ x.found, P x.digest r') →
      P x.digest r) : m.store.Each P := by
  obtain ⟨events, rfl⟩ := h
  obtain ⟨hvalid, hspaces⟩ := run_replays (m := ⟨.empty settings, start⟩)
    (Store.empty_wellFormed settings) events
  exact (hvalid.each (Store.empty_each settings P) hstored).of_spaces hspaces

/-! ## Filed records -/

/-- The record has bins, none of them null, and if it carries a key, it lies at the digest of that
key in its own set. -/
structure StoredRecord.Filed (d : Digest) (r : StoredRecord) : Prop where
  bins : r.bins ≠ []
  values : ∀ e ∈ r.bins, e.2.isNull = false
  place : ∀ k ∈ r.key, k.digestIn r.set = d

/-- A key that is stored is the one that was given. -/
theorem Cell.storedKey_eq_some {k k' : Key} (h : storedKey k = some k') : k = k' := by
  cases k with
  | digest d => cases h
  | string | integer | bytes =>
    cases h
    rfl

/-- Where a filed record is found, a filed one is stored. -/
theorem Effect.Valid.filed {s : Store} {x : Effect} {r : StoredRecord} (h : x.Valid s)
    (hr : x.change = .store r) (hfound : ∀ r' ∈ x.found, r'.Filed x.digest) :
    r.Filed x.digest := by
  have hmade : ∀ v : Value, v.isMade → v.isNull = false := fun _ => Value.isNull_of_isMade
  rcases h.stores hr with ⟨address, given, options, -, hdigest, hbins, rfl⟩ |
    ⟨address, ops, options, done, -, hdigest, hdone, -, hbins, rfl⟩ |
    ⟨job, r', done, -, hr', hdone, hbins, rfl⟩
  · refine ⟨hbins, ?_, fun k hk => ?_⟩
    · exact Cell.putBins_holds (P := fun v => v.isNull = false) (fun _ _ hnull => hnull)
        (fun r' hr' => (hfound r' hr').values) options.mode
    · rw [← Cell.storedKey_eq_some hk]
      exact hdigest.symm
  · cases hx : x.found with
    | none =>
      rw [hx] at hdone
      refine ⟨hbins, ?_, fun k hk => ?_⟩
      · exact Operation.applyFrom_holds hmade (fun _ _ _ hnull => hnull) (List.forall_mem_nil _)
          hdone
      · rw [← Cell.storedKey_eq_some hk]
        exact hdigest.symm
    | some r' =>
      rw [hx] at hdone
      have hfiled := hfound r' hx
      refine ⟨hbins, ?_, hfiled.place⟩
      exact Operation.applyFrom_holds hmade (fun _ _ _ hnull => hnull) hfiled.values hdone
  · have hfiled := hfound r' hr'
    refine ⟨hbins, ?_, hfiled.place⟩
    exact Operation.applyFrom_holds hmade (fun _ _ _ hnull => hnull) hfiled.values hdone

/-- The address of a record is that of where it lies. -/
theorem StoredRecord.Filed.address_digest {d : Digest} {r : StoredRecord} (h : r.Filed d)
    (ns : String) (bins : Bins) (now : Instant) :
    (r.toRecord ns d bins now).address.digest = d := by
  show (r.key.getD (.digest d)).digestIn r.set = d
  cases hkey : r.key with
  | none => rfl
  | some k => exact h.place k hkey

/-! ## Scans and reads -/

/-- A read finds a live record where it lies. -/
theorem Store.get_of_live {s : Store} {rs : Records} {r : StoredRecord}
    (haccess : s.accessRead = .ok ()) (now : Instant) (address : Address)
    (hrs : s.space? address.ns = some rs) (hr : rs.live? now address.digest = some r) :
    s.get now address {} =
      .ok { r.toRecord address.ns address.digest r.bins now with address := address } := by
  unfold Store.get
  refine bind_eq_ok_iff.mpr ⟨(), haccess, bind_eq_ok_iff.mpr ⟨rs, space_eq_ok_iff.mpr hrs, ?_⟩⟩
  simp only [hr]
  rfl

/-- In any state that a store which began empty reaches, whatever clients and jobs do and in which
order, every stored record has a bin, no null bin, and lies at the digest of its own set and key,
unless it carries none. A record on a page of a scan that asks for all bins is what a read of its
address answers at the same time. -/
theorem Moment.Reaches.all_filed {settings : StoreSettings} {start : Instant} {m : Moment}
    (h : Reaches ⟨.empty settings, start⟩ m) :
    m.store.Each StoredRecord.Filed ∧
      ∀ (now : Instant) (request : ScanRequest) (page : ScanPage), request.bins = none →
        m.store.scan now request = .ok page →
          ∀ r ∈ page.records, m.store.get now r.address {} = .ok r := by
  have hfiled : m.store.Each StoredRecord.Filed :=
    each_of_empty h fun _ _ _ hvalid hr hfound => hvalid.filed hr hfound
  refine ⟨hfiled, fun now request page hbins hpage r hr => ?_⟩
  obtain ⟨rs, start, haccess, hsize, hrs, -, rfl⟩ := Store.scan_eq_ok_iff.mp hpage
  obtain ⟨shown, hsub, hrecords, -⟩ := Records.page_shown (Nat.one_le_iff_ne_zero.mpr hsize)
    ((rs.behind start).selected now request.selection)
    fun e => e.2.toRecord request.selection.ns e.1 (e.2.bins.project request.bins) now
  rw [hrecords] at hr
  obtain ⟨e, he, rfl⟩ := List.mem_map.mp hr
  obtain ⟨hbehind, hlive, -, -⟩ := Records.mem_selected.mp (hsub.subset he)
  have hmem : e ∈ rs := (Records.mem_behind.mp hbehind).1
  rw [hbins]
  have hdigest := (hfiled _ rs hrs e hmem).address_digest request.selection.ns e.2.bins now
  have hfind : Ordered.find? e.1 rs = some e.2 :=
    (Ordered.find?_eq_some_iff (h.wellFormed_of_empty.space? hrs).sorted).mpr hmem
  have hfound : rs.live? now e.1 = some e.2 := Option.filter_eq_some_iff.mpr ⟨hfind, hlive⟩
  have hget := Store.get_of_live haccess now
    (e.2.toRecord request.selection.ns e.1 e.2.bins now).address hrs (hdigest.symm ▸ hfound)
  rw [hdigest] at hget
  exact hget

namespace Moment

/-- The name of a record, and its digest. -/
def keyed : Address := ⟨"test", some "s", .string "k"⟩

def keyedDigest : Digest :=
  ⟨[0x24, 0x26, 0xe5, 0xa4, 0x53, 0xb3, 0xa7, 0x5f, 0x44, 0x1c, 0xec, 0xa1, 0xd1, 0x99, 0xfb,
    0x99, 0x9f, 0xb4, 0x6e, 0x9b], rfl⟩

set_option maxRecDepth 100000 in
theorem digest_keyed : keyed.digest = keyedDigest := by decide +kernel

/-- A record is created under its key, and then changed under its digest and from outside its
set. -/
def writtenTwice : Moment :=
  run ⟨.empty {}, 0⟩
    [.put keyed [("n", .int 1), ("gone", .null)] {},
      .operate ⟨"test", none, .digest keyedDigest⟩ [.add "n" (.int 2)] {}]

theorem writtenTwice_scan :
    writtenTwice.store.scan 0 ⟨⟨"test", some "s", none⟩, 10, none, none⟩ =
      .ok ⟨[⟨keyed, keyed.digest, [("n", .int 3)], 2, none⟩], none⟩ := by
  simp only [writtenTwice, run, List.foldl_cons, List.foldl_nil, after, Store.operate, Store.put,
    Store.write, digest_keyed]
  rfl

/-- The record keeps its key and its set, and is found under them. -/
theorem Reaches.all_filed_writtenTwice :
    Reaches ⟨.empty {}, 0⟩ writtenTwice ∧ writtenTwice.store.Each StoredRecord.Filed ∧
      writtenTwice.store.get 0 keyed {} =
        .ok ⟨keyed, keyed.digest, [("n", .int 3)], 2, none⟩ := by
  have hreach : Reaches ⟨.empty {}, 0⟩ writtenTwice := ⟨_, rfl⟩
  obtain ⟨hfiled, hread⟩ := hreach.all_filed
  have hpage := hread 0 ⟨⟨"test", some "s", none⟩, 10, none, none⟩ _ rfl writtenTwice_scan
  exact ⟨hreach, hfiled, hpage ⟨keyed, keyed.digest, [("n", .int 3)], 2, none⟩ List.mem_cons_self⟩

end Moment
end RecordService
