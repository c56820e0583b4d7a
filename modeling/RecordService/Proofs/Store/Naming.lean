import RecordService.Proofs.Scan.Chain
import RecordService.Proofs.Store.Metadata

/-!
# Under which name a record is found

A record is stored with a set and a key, and a scan finds it in that set and shows that key. The
digest alone tells which record a write reaches, so a write can reach a record by another name than
its own: by its digest, from any set or none. What this does to the record's own name depends on the
kind of the write.

* `Effect.names?`: the address that a change gives to the record that it stores. A put gives its
  own. Operations give theirs if they bring the record into being; a job never gives one.
* `Effect.Valid.named`: what one change makes of set and key.
* `Moment.named_by_last`: after any run, a record has the set and the key of the last change that
  named it.
* `Moment.scanned_under_name`: so a scan of its set returns it under its key for as long as it is
  there, whatever reaches it, if only the puts among that give its own name.
* `Moment.put_renames`: a put by its digest takes a record out of its set.
-/

namespace RecordService

/-- The record has the set of an address, and its key unless that is a digest. -/
def StoredRecord.NamedBy (a : Address) (r : StoredRecord) : Prop :=
  r.set = a.set ∧ r.key = Cell.storedKey a.key

/-- A key that is no digest is stored as it is. -/
theorem Cell.storedKey_of_ne {k : Key} (h : ∀ d, k ≠ .digest d) : storedKey k = some k := by
  cases k with
  | digest d => exact absurd rfl (h d)
  | string | integer | bytes => rfl

/-- A record that an address names is shown under it. -/
theorem StoredRecord.NamedBy.toRecord_address {a : Address} {r : StoredRecord} (h : r.NamedBy a)
    (hkey : ∀ d, a.key ≠ .digest d) (d : Digest) (bins : Bins) (now : Instant) :
    (r.toRecord a.ns d bins now).address = a := by
  have hshown : r.key.getD (.digest d) = a.key := by
    rw [h.2, Cell.storedKey_of_ne hkey, Option.getD_some]
  rw [toRecord, hshown, h.1]

/-- There are no records at first. -/
theorem Store.record?_empty (settings : StoreSettings) (ns : String) (d : Digest) :
    (empty settings).record? ns d = none := by
  refine Option.eq_none_iff_forall_ne_some.mpr fun r hr => ?_
  obtain ⟨rs, hrs, hfind⟩ := Option.bind_eq_some_iff.mp hr
  exact empty_each settings (fun _ _ => False) ns rs hrs _ (Ordered.mem_of_find? hfind)

namespace Effect

variable {s : Store} {x : Effect} {past : List Effect} {r : StoredRecord} {ns : String}
  {d : Digest} {a : Address}

/-- The address that a change gives to the record that it stores. -/
def names? (x : Effect) : Option Address :=
  match x.change, x.origin with
  | .store _, .client (.put address _ _) => some address
  | .store _, .client (.operate address _ _) => if x.found.isNone then some address else none
  | _, _ => none

/-- If the change is a put, its address has the set and the key of the given one. -/
def KeepsName (a : Address) (x : Effect) : Prop :=
  ∀ address given options, x.origin = .client (.put address given options) →
    address.set = a.set ∧ address.key = a.key

/-- The address that the last of the changes has given that has given one. -/
def lastName? (past : List Effect) : Option Address := (past.filterMap names?).getLast?

/-! ## One change -/

/-- A change that gives a name is a put, or operations that have found no record. -/
theorem names?_cases (h : x.names? = some a) :
    (∃ given options, x.origin = .client (.put a given options)) ∨
      ∃ ops options, x.origin = .client (.operate a ops options) ∧ x.found = none := by
  unfold names? at h
  split at h
  · rename_i given options _ horigin
    cases h
    exact .inl ⟨given, options, horigin⟩
  · rename_i ops options _ horigin
    split at h <;> cases h
    rename_i hnone
    exact .inr ⟨ops, options, horigin, Option.isNone_iff_eq_none.mp hnone⟩
  · cases h

/-- What is stored has the name that the change gives, or else the one that was found. -/
theorem Valid.named (h : x.Valid s) (hr : x.change = .store r) :
    (∃ a, x.names? = some a ∧ r.NamedBy a) ∨
      (x.names? = none ∧ ∃ r', x.found = some r' ∧ r.set = r'.set ∧ r.key = r'.key) := by
  unfold names?
  rw [hr]
  rcases h.stores hr with ⟨address, given, options, horigin, -, -, rfl⟩ |
    ⟨address, ops, options, done, horigin, -, -, -, -, rfl⟩ |
    ⟨job, r', done, horigin, hfound, -, -, rfl⟩
  · rw [horigin]
    exact .inl ⟨address, rfl, rfl, rfl⟩
  · rw [horigin]
    cases x.found with
    | none => exact .inl ⟨address, rfl, rfl, rfl⟩
    | some r' => exact .inr ⟨rfl, r', rfl, rfl, rfl⟩
  · rw [horigin]
    exact .inr ⟨rfl, r', hfound, rfl, rfl⟩

theorem lastName?_append (past later : List Effect) :
    lastName? (past ++ later) = (lastName? later).or (lastName? past) := by
  rw [lastName?, List.filterMap_append, List.getLast?_append]
  rfl

/-- A change that gives no name leaves the last one. -/
theorem lastName?_concat_of_none (h : x.names? = none) :
    lastName? (past ++ [x]) = lastName? past := by
  have hnone : lastName? [x] = none := by rw [lastName?, List.filterMap_cons_none h]; rfl
  rw [lastName?_append, hnone, Option.none_or]

theorem lastName?_concat_of_some (h : x.names? = some a) : lastName? (past ++ [x]) = some a := by
  have hone : lastName? [x] = some a := by rw [lastName?, List.filterMap_cons_some h]; rfl
  rw [lastName?_append, hone, Option.some_or]

/-- Where the record in a place has the last name that was given there, it still has behind a
change. -/
theorem Valid.keeps_name (h : x.Valid s) (hwf : s.WellFormed)
    (hs : ∀ r, s.record? ns d = some r → ∃ a ∈ lastName? (past.filter (·.isAt ns d)), r.NamedBy a) :
    ∀ r, (x.replay s).record? ns d = some r →
      ∃ a ∈ lastName? ((past ++ [x]).filter (·.isAt ns d)), r.NamedBy a := by
  intro r hr
  rw [List.filter_append]
  rcases h.record?_cases hwf hr with ⟨hbefore, hat | hkeep⟩ | ⟨hat, hchange, hfound⟩
  · rw [List.filter_cons_of_neg (Bool.eq_false_iff.mp hat), List.filter_nil, List.append_nil]
    exact hs r hbefore
  · have hnone : x.names? = none := by rw [names?, hkeep]
    cases hat : x.isAt ns d with
    | false =>
      rw [List.filter_cons_of_neg (Bool.eq_false_iff.mp hat), List.filter_nil, List.append_nil]
      exact hs r hbefore
    | true =>
      rw [List.filter_cons_of_pos hat, List.filter_nil, lastName?_concat_of_none hnone]
      exact hs r hbefore
  · rw [List.filter_cons_of_pos hat, List.filter_nil]
    rcases h.named hchange with ⟨a, hname, hr⟩ | ⟨hnone, r', hr', hset, hkey⟩
    · exact ⟨a, lastName?_concat_of_some hname, hr⟩
    · obtain ⟨a, ha, hr'⟩ := hs r' (hfound r' hr')
      rw [lastName?_concat_of_none hnone]
      exact ⟨a, ha, hset.trans hr'.1, hkey.trans hr'.2⟩

end Effect

namespace Moment

variable {m : Moment} {ns : String} {d : Digest}

/-! ## Runs -/

/-- After any run, the set and the key of a stored record, expired or not, are those of the last
change in its place that has given a name. -/
theorem named_by_last (settings : StoreSettings) (start : Instant) (events : List StoreEvent)
    {r : StoredRecord} (hr : (run ⟨.empty settings, start⟩ events).store.record? ns d = some r) :
    ∃ a ∈ Effect.lastName? ((log ⟨.empty settings, start⟩ events).filter (·.isAt ns d)),
      r.NamedBy a := by
  have hwf : (Moment.mk (.empty settings) start).store.WellFormed := Store.empty_wellFormed settings
  obtain ⟨hreplays, hspaces⟩ := run_replays hwf events
  refine hreplays.tells []
    (P := fun past r => ∃ a ∈ Effect.lastName? (past.filter (·.isAt ns d)), r.NamedBy a)
    hwf (fun _ _ _ hx hwf hs => hx.keeps_name hwf hs) ?_ r ?_
  · intro r hr
    rw [Store.record?_empty] at hr
    cases hr
  · rw [Store.record?, Store.space?, hspaces]
    exact hr

/-- Where a record is live at every moment of a run, whatever changes it there has found it. -/
theorem found_of_live (hwf : m.store.WellFormed) {events : List StoreEvent}
    (hlive : ∀ p, p <+: events →
      ((m.run p).store.live? (m.run p).now ns d).isSome) :
    ∀ x ∈ m.log events, x.isAt ns d → x.found.isSome := by
  induction events generalizing m with
  | nil => exact fun _ h => nomatch h
  | cons e rest ih =>
    intro x hx hat
    rcases List.mem_append.mp hx with hx | hx
    · obtain ⟨rfl, rfl⟩ : x.ns = ns ∧ x.digest = d := by simpa [Effect.isAt] using hat
      have hbefore := hlive [] List.nil_prefix
      cases hfound : x.found with
      | some r => rfl
      | none =>
        rw [run, List.foldl_nil, live?_of_found_none hwf hx hfound] at hbefore
        cases hbefore
    · refine ih (after_wellFormed hwf e) (fun p hp => ?_) x hx hat
      exact hlive (e :: p) (List.cons_prefix_cons.mpr ⟨rfl, hp⟩)

/-- A write that brings a record into being is one change, which gives its address. -/
theorem effects_of_created (hwf : m.store.WellFormed) {e : StoreEvent} {w : WriteCall}
    (hw : e.write? = some w)
    (hnone : m.store.live? m.now w.address.ns w.address.digest = none)
    (hsome : ((m.after e).store.live? m.now w.address.ns w.address.digest).isSome) :
    ∃ x, m.effects e = [x] ∧ x.isAt w.address.ns w.address.digest ∧
      x.names? = some w.address := by
  obtain ⟨hafter, heffects⟩ := after_write (m := m) hw
  rw [hafter] at hsome
  rw [heffects]
  rcases w.effects_cases m.now m.store with
    ⟨_, hrun, -⟩ | ⟨doubt, rs, a, c, hrs, hdecide, hone, hrun⟩
  · rw [hrun, hnone] at hsome
    cases hsome
  · rw [Store.live?, hrs, Option.bind_some] at hnone
    rw [hrun, Store.live?, Store.space?_setSpace, if_pos rfl, Option.bind_some,
      Records.live?_change (hwf.space? hrs).sorted, hnone] at hsome
    refine ⟨_, hone, by simp [Effect.isAt], ?_⟩
    rw [hnone] at hdecide ⊢
    cases c with
    | keep => cases hsome
    | remove => cases hsome
    | store r =>
      cases w with
      | put => rfl
      | operate => rfl
      | delete address options => cases hdecide

/-- What a scan selects in a place is what is stored there. -/
theorem Selects.record? {sel : Selection} {r : StoredRecord} (h : m.Selects sel d r)
    (hwf : m.store.WellFormed) : m.store.record? sel.ns d = some r := by
  obtain ⟨rs, hrs, hmem⟩ := h.stored
  rw [Store.record?, hrs, Option.bind_some]
  exact (Ordered.find?_eq_some_iff (hwf.space? hrs).sorted).mpr hmem

/-- A live record in a set is selected by a scan of the set. -/
theorem selects_of_live {set : Option String} {r : StoredRecord}
    (h : m.store.live? m.now ns d = some r) (hset : r.set = set) :
    m.Selects ⟨ns, set, none⟩ d r := by
  obtain ⟨rs, hrs, hfind⟩ := Option.bind_eq_some_iff.mp h
  obtain ⟨hfind, hlive⟩ := Option.filter_eq_some_iff.mp hfind
  refine ⟨⟨rs, hrs, Ordered.mem_of_find? hfind⟩, hlive, ?_, rfl⟩
  simp [StoredRecord.isIn, hset]

/-- The name that a record was created under is the last one that it was given, as long as every
change has found it and every put has given that name again. -/
theorem named_of_created {settings : StoreSettings} {start : Instant}
    {before later : List StoreEvent} {e : StoreEvent} {x : Effect} {a : Address}
    (heffects : (run ⟨.empty settings, start⟩ before).effects e = [x])
    (hat : x.isAt ns d) (hname : x.names? = some a)
    (hfound : ∀ y ∈ ((run ⟨.empty settings, start⟩ before).after e).log later, y.isAt ns d →
      y.found.isSome)
    (hputs : ∀ y ∈ ((run ⟨.empty settings, start⟩ before).after e).log later, y.isAt ns d →
      y.KeepsName a)
    {r : StoredRecord}
    (hr : (run ⟨.empty settings, start⟩ (before ++ e :: later)).store.record? ns d = some r) :
    r.NamedBy a := by
  obtain ⟨b, hb, hr⟩ := named_by_last settings start (before ++ e :: later) hr
  rw [log_append, log, heffects, List.filter_append, List.filter_append,
    List.filter_cons_of_pos hat, List.filter_nil, Effect.lastName?_append,
    Effect.lastName?_append] at hb
  cases hlast : Effect.lastName?
      ((((run ⟨.empty settings, start⟩ before).after e).log later).filter (·.isAt ns d)) with
  | none =>
    have hone : Effect.lastName? ([] ++ [x]) = some a := Effect.lastName?_concat_of_some hname
    rw [List.nil_append] at hone
    rw [hlast, hone, Option.none_or, Option.some_or] at hb
    cases hb
    exact hr
  | some c =>
    rw [hlast, Option.some_or, Option.some_or] at hb
    cases hb
    obtain ⟨y, hy, hname⟩ := List.mem_filterMap.mp (List.mem_of_getLast? hlast)
    obtain ⟨hy, hat⟩ := List.mem_filter.mp hy
    rcases Effect.names?_cases hname with ⟨given, options, horigin⟩ | ⟨_, _, -, hnone⟩
    · obtain ⟨hset, hkey⟩ := hputs y hy hat _ given options horigin
      exact ⟨hr.1.trans hset, hr.2.trans (congrArg Cell.storedKey hkey)⟩
    · have hsome := hfound y hy hat
      rw [hnone] at hsome
      cases hsome

/-- A record is created by a write under a key that is no digest, and from then on is there at
every moment: it is not deleted, does not expire and does not lose its last bin. Whatever else
happens, operations and jobs reach it by whatever address or selection, and puts reach it by its own
set and key. Then, at each of these moments, it has that set and that key, and a scan of the set,
all of whose calls are made at such moments, returns it exactly once, under its address. -/
theorem scanned_under_name (settings : StoreSettings) (start : Instant)
    {before later : List StoreEvent} {e : StoreEvent} {w : WriteCall} (hw : e.write? = some w)
    (hkey : ∀ d, w.address.key ≠ .digest d) :
    let m := run ⟨.empty settings, start⟩ before
    let at_ (p : List StoreEvent) := (m.after e).run p
    m.store.live? m.now w.address.ns w.address.digest = none →
      (∀ p, p <+: later →
        ((at_ p).store.live? (at_ p).now w.address.ns w.address.digest).isSome) →
      (∀ x ∈ (m.after e).log later, x.isAt w.address.ns w.address.digest →
        x.KeepsName w.address) →
      (∀ p, p <+: later → ∃ r,
        (at_ p).Selects ⟨w.address.ns, w.address.set, none⟩ w.address.digest r ∧
          r.NamedBy w.address) ∧
      ∀ limits calls, ScanChain limits ⟨w.address.ns, w.address.set, none⟩ none calls →
        (∀ c ∈ calls, ∃ p, p <+: later ∧ c.moment = at_ p) →
          (calls.flatMap (·.digests)).count w.address.digest = 1 ∧
            ∀ c ∈ calls, ∀ r ∈ c.page.records, r.digest = w.address.digest →
              r.address = w.address := by
  intro m at_ hnone hlive hputs
  have hwf : m.store.WellFormed := run_wellFormed (Store.empty_wellFormed settings) before
  have hwf' : (m.after e).store.WellFormed := after_wellFormed hwf e
  have hcreated : ((m.after e).store.live? m.now w.address.ns w.address.digest).isSome := by
    have hnow : (m.after e).now = m.now := by rw [(after_write hw).1]
    exact hnow ▸ hlive [] List.nil_prefix
  obtain ⟨x, heffects, hat, hname⟩ := effects_of_created hwf hw hnone hcreated
  have hfound := found_of_live hwf' hlive
  have hnamed : ∀ p, p <+: later → ∀ r,
      (at_ p).store.record? w.address.ns w.address.digest = some r → r.NamedBy w.address := by
    rintro p ⟨rest, rfl⟩ r hr
    have hsub : ∀ y ∈ (m.after e).log p, y ∈ (m.after e).log (p ++ rest) := fun y hy =>
      log_append (m.after e) p rest ▸ List.mem_append_left _ hy
    refine named_of_created heffects hat hname (fun y hy => hfound y (hsub y hy))
      (fun y hy => hputs y (hsub y hy)) ?_
    rw [run_append]
    exact hr
  have hselects : ∀ p, p <+: later → ∃ r,
      (at_ p).Selects ⟨w.address.ns, w.address.set, none⟩ w.address.digest r ∧
        r.NamedBy w.address := by
    intro p hp
    obtain ⟨r, hr⟩ := Option.isSome_iff_exists.mp (hlive p hp)
    obtain ⟨rs, hrs, hfind⟩ := Option.bind_eq_some_iff.mp hr
    have hrecord : (at_ p).store.record? w.address.ns w.address.digest = some r := by
      rw [Store.record?, hrs, Option.bind_some]
      exact (Option.filter_eq_some_iff.mp hfind).1
    have hr' := hnamed p hp r hrecord
    exact ⟨r, selects_of_live hr hr'.1, hr'⟩
  refine ⟨hselects, fun limits calls hchain hcalls => ?_⟩
  have hcallswf : ∀ c ∈ calls, c.moment.store.WellFormed := fun c hc => by
    obtain ⟨p, -, hmoment⟩ := hcalls c hc
    exact hmoment ▸ run_wellFormed hwf' p
  obtain ⟨-, hasc, hspecs, hfind⟩ := hchain.covers hcallswf (d := none) rfl
  refine ⟨?_, fun c hc r hr hd => ?_⟩
  · have hmem := hfind w.address.digest (fun c hc => by
      obtain ⟨p, hp, hmoment⟩ := hcalls c hc
      obtain ⟨r, hr, -⟩ := hselects p hp
      exact ⟨r, hmoment ▸ hr⟩) (fun _ hstart => by cases hstart)
    have hnodup : (calls.flatMap (·.digests)).Nodup := by
      refine hasc.imp fun {a b} hab => ?_
      rintro rfl
      exact Digest.lt_irrefl a hab
    rw [hnodup.count, if_pos hmem]
  · obtain ⟨k, hspec⟩ := hspecs c hc
    obtain ⟨stored, hstored, hr⟩ := hspec.selected r hr
    obtain ⟨p, hp, hmoment⟩ := hcalls c hc
    have hrecord := hstored.record? (hcallswf c hc)
    rw [hd, hmoment] at hrecord
    rw [hr]
    exact (hnamed p hp stored hrecord).toRecord_address hkey _ _ _

/-! ### By its digest, from outside its set -/

/-- The event that creates a record under its key. -/
def creation : StoreEvent := .put keyed [("n", .int 1)] {}

/-- The moment after it. -/
def created : Moment where
  store :=
    { settings := {}
      spaces := [("test",
        [(keyedDigest, ⟨some "s", some (.string "k"), [("n", .int 1)], 1, none⟩)])] }
  now := 0

theorem after_creation : after ⟨.empty {}, 0⟩ creation = created := by
  simp only [creation, after, Store.put, Store.write, digest_keyed]
  rfl

/-- Then the record is changed by its digest from outside its set: by operations, by a job for the
whole namespace, and by operations again. -/
def reachedByDigest : List StoreEvent :=
  [.operate ⟨"test", none, .digest keyedDigest⟩ [.add "n" (.int 2)] {},
    .startJob ⟨⟨"test", none, none⟩, [.put "m" (.int 1)]⟩, .dispatch, .stepJob 1, .stepJob 1,
    .operate ⟨"test", some "t", .digest keyedDigest⟩ [.deleteBin "n"] {}]

/-- A scan of the set at the end. -/
def scanAtEnd : ScanCall where
  moment := created.run reachedByDigest
  bins := none
  size := none
  page := ⟨[⟨keyed, keyedDigest, [("m", .int 1)], 4, none⟩], none⟩

theorem scanAtEnd_chain : ScanChain {} ⟨"test", some "s", none⟩ none [scanAtEnd] := .last rfl rfl

/-- The record keeps its set and its key all along, and the scan returns it under them. -/
theorem scanned_under_name_reachedByDigest :
    (∀ p, p <+: reachedByDigest →
        ∃ r, (created.run p).Selects ⟨"test", some "s", none⟩ keyedDigest r ∧ r.NamedBy keyed) ∧
      (scanAtEnd.digests.count keyedDigest = 1 ∧
        ∀ r ∈ scanAtEnd.page.records, r.digest = keyedDigest → r.address = keyed) := by
  have hlive : ∀ n < 7,
      let m := created.run (reachedByDigest.take n)
      (m.store.live? m.now "test" keyedDigest).isSome := by decide
  have hputs : (created.log reachedByDigest).all (fun x => match x.origin with
      | .client (.put ..) => false
      | _ => true) = true := by decide
  have hkeeps := @scanned_under_name {} 0 [] reachedByDigest creation
    (.put keyed [("n", .int 1)] {}) rfl nofun
  simp only [WriteCall.address, digest_keyed, run, List.foldl_nil, after_creation] at hkeeps
  obtain ⟨hselects, hscan⟩ := hkeeps rfl
    (fun p hp => List.prefix_iff_eq_take.mp hp ▸ hlive p.length (Nat.lt_succ_of_le hp.length_le))
    fun x hx _ address given options horigin => by
      have hx := List.all_eq_true.mp hputs x hx
      rw [horigin] at hx
      cases hx
  refine ⟨hselects, ?_⟩
  obtain ⟨hcount, haddress⟩ := hscan {} [scanAtEnd] scanAtEnd_chain
    (List.forall_mem_singleton.mpr ⟨reachedByDigest, List.prefix_rfl, rfl⟩)
  exact ⟨by simpa using hcount, haddress scanAtEnd List.mem_cons_self⟩

/-- A put by the digest, from no set, keeps the record and takes it out of its set: a scan of the
set has returned it, and returns it no more, while a read by its key still finds it. -/
theorem put_renames :
    let sel : Selection := ⟨"test", some "s", none⟩
    let m := after ⟨.empty {}, 0⟩ creation
    let m' := m.after (.put ⟨"test", none, .digest keyedDigest⟩ [("n", .int 2)] {})
    m.store.scan 0 ⟨sel, 10, none, none⟩ =
        .ok ⟨[⟨keyed, keyedDigest, [("n", .int 1)], 1, none⟩], none⟩ ∧
      m'.store.scan 0 ⟨sel, 10, none, none⟩ = .ok ⟨[], none⟩ ∧
      m'.store.get 0 keyed {} = .ok ⟨keyed, keyedDigest, [("n", .int 2)], 2, none⟩ := by
  simp only [after_creation, Store.get, digest_keyed]
  exact ⟨rfl, rfl, rfl⟩

end Moment
end RecordService
