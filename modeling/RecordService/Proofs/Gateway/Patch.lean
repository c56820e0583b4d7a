import RecordService.Gateway.Basic
import RecordService.Proofs.Store.Generation

/-!
# A patch is a list of puts

An update of some bins and operations that put each of them go through different code: the one
merges a map into the bins of the record, the other applies operations one after the other, in any
order. On a live record they come to the same, but for the name: the update stores the record under
the set and the key that it was addressed by, and the operations keep those that it has.

* `Operation.applyFrom_puts`: puts merge their bins.
* `Cell.find?_merge`, `merge_perm`: what merged bins hold, and that their order does not matter.
* `Cell.put_eq_puts`: the two decide the same about a live record.
* `Gateway.update_eq_puts`: they are answered alike and leave alike records.
-/

namespace RecordService

/-- The operations that put bins, in the order of the entries. -/
def Bins.puts (entries : Bins) : List Operation := entries.map fun e => .put e.1 e.2

/-- What a record is besides its name: its bins, its generation and its expiry. -/
def StoredRecord.content (r : StoredRecord) : Bins × UInt32 × Option Instant :=
  (r.bins, r.generation, r.expiresAt)

/-- A change that stores its record under the name of an address. -/
def Change.underName (address : Address) : Change → Change
  | .keep => .keep
  | .remove => .remove
  | .store r => .store { r with set := address.set, key := Cell.storedKey address.key }

namespace Operation

/-- Operations that put bins merge them into those that are there. -/
theorem applyFrom_puts (p : Progress) (entries : Bins) :
    applyFrom p entries.puts =
      .ok { p with
        bins := Cell.merge p.bins entries
        modified := p.modified || !entries.isEmpty } := by
  induction entries generalizing p with
  | nil =>
    show Except.ok p = _
    rw [List.isEmpty_nil, Bool.not_true, Bool.or_false]
    rfl
  | cons e rest ih =>
    show applyFrom { p with bins := store e.1 e.2 p.bins, modified := true } (Bins.puts rest) = _
    rw [ih, List.isEmpty_cons, Bool.not_false, Bool.or_true, Bool.true_or]
    rfl

end Operation

namespace Cell

variable {bins given entries : Bins}

/-- Where bins are merged, each of them is there with its value, or is missing if that is null; the
others are as they were. -/
theorem find?_merge (hbins : Ordered.Sorted bins)
    (hentries : ∀ e ∈ entries, Ordered.find? e.1 given = some e.2) (name : String) :
    Ordered.find? name (merge bins entries) =
      if name ∈ entries.map (·.1) then (Ordered.find? name given).filter (!·.isNull)
      else Ordered.find? name bins := by
  induction entries generalizing bins with
  | nil => rfl
  | cons e rest ih =>
    obtain ⟨he, hrest⟩ := List.forall_mem_cons.mp hentries
    show Ordered.find? name (merge (Operation.store e.1 e.2 bins) rest) = _
    rw [ih (Operation.store_sorted hbins e.1 e.2) hrest, Operation.find?_store hbins, List.map_cons]
    by_cases hname : name ∈ rest.map (·.1)
    · rw [if_pos hname, if_pos (List.mem_cons_of_mem _ hname)]
    · by_cases heq : name = e.1
      · rw [if_neg hname, if_pos heq, heq, if_pos List.mem_cons_self, he]
      · rw [if_neg hname, if_neg heq, if_neg (by simp [heq, hname])]

/-- The bins of a map can be merged in any order. -/
theorem merge_perm (hbins : Ordered.Sorted bins) (hgiven : Ordered.Sorted given)
    (h : entries.Perm given) : merge bins entries = merge bins given := by
  have hfind : ∀ e ∈ given, Ordered.find? e.1 given = some e.2 := fun e he =>
    (Ordered.find?_eq_some_iff hgiven).mpr he
  refine (merge_sorted hbins entries).ext (merge_sorted hbins given) fun name => ?_
  rw [find?_merge hbins (fun e he => hfind e (h.mem_iff.mp he)), find?_merge hbins hfind]
  simp only [(h.map (·.1)).mem_iff]

/-- A put to a live record decides as operations that put its bins do, and names the record anew. -/
theorem put_eq_puts {now : Instant} {address : Address} {d : Digest} {r : StoredRecord}
    (hr : Ordered.Sorted r.bins) (hgiven : Ordered.Sorted given) (hsome : given ≠ [])
    (h : entries.Perm given) (generation ttl : Option UInt32) :
    put now address given ⟨.updateOnly, generation, ttl⟩ (some r) =
      (operate now address d entries.puts ⟨.update, generation, ttl⟩ (some r)).map
        fun p => ((), p.2.underName address) := by
  have hentries : (!entries.isEmpty) = true := by
    cases entries with
    | nil => exact absurd h.nil_eq.symm hsome
    | cons => rfl
  have hcheck : checkPut (some r) ⟨.updateOnly, generation, ttl⟩ =
      checkOperate (some r) entries.puts ⟨.update, generation, ttl⟩ := rfl
  have happly : Operation.applyAll entries.puts r.bins =
      .ok ⟨merge r.bins given, [], true⟩ := by
    rw [Operation.applyAll, Operation.applyFrom_puts, merge_perm hr hgiven h, hentries]
    rfl
  rw [put, operate, hcheck]
  cases checkOperate (some r) entries.puts ⟨.update, generation, ttl⟩ with
  | error e => rfl
  | ok =>
    have hputBins : putBins (some r) .updateOnly given = merge r.bins given := rfl
    simp only [Except.map, Except.bind, Option.getD_some, happly, hputBins]
    by_cases hbins : List.isEmpty (merge r.bins given) = true
    · simp [hbins, modified, Change.underName]
    · simp [hbins, modified, Change.underName]

end Cell

namespace Records

/-- Where changes differ in names only, so do the records that they leave. -/
theorem find?_change_underName (rs : Records) (d d' : Digest) (c : Change) (address : Address) :
    (Ordered.find? d' (rs.change d (c.underName address))).map (·.content) =
      (Ordered.find? d' (rs.change d c)).map (·.content) := by
  cases c with
  | keep | remove => rfl
  | store r =>
    rw [Change.underName, change, change, Ordered.find?_insert, Ordered.find?_insert]
    split <;> rfl

end Records

namespace Store

/-- A put to a live record and operations that put its bins are refused alike, or decide alike and
are both answered or both left in doubt. -/
theorem put_cases_puts {s : Store} (hwf : s.WellFormed) {now : Instant} {address : Address}
    (hlive : (s.live? now address.ns address.digest).isSome) {given entries : Bins}
    (hgiven : Ordered.Sorted given) (hsome : given ≠ []) (h : entries.Perm given)
    (generation ttl : Option UInt32) :
    (∃ e, s.put now address given ⟨.updateOnly, generation, ttl⟩ = (.error e, s) ∧
        s.operate now address entries.puts ⟨.update, generation, ttl⟩ = (.error e, s)) ∨
      ∃ (doubt : Bool) (rs : Records) (record : Record) (c : Change),
        s.space? address.ns = some rs ∧
          s.put now address given ⟨.updateOnly, generation, ttl⟩ =
              (if doubt then .error (.timeout true) else .ok (),
                s.setSpace address.ns (rs.change address.digest (c.underName address))) ∧
          s.operate now address entries.puts ⟨.update, generation, ttl⟩ =
              (if doubt then .error (.timeout true) else .ok record,
                s.setSpace address.ns (rs.change address.digest c)) := by
  obtain ⟨r, hr⟩ := Option.isSome_iff_exists.mp hlive
  obtain ⟨rs, hrs, hfound⟩ := Option.bind_eq_some_iff.mp hr
  have hdecide : Cell.put now address given ⟨.updateOnly, generation, ttl⟩ (some r) =
      (Cell.operate now address address.digest entries.puts ⟨.update, generation, ttl⟩
        (some r)).map fun p => ((), p.2.underName address) :=
    Cell.put_eq_puts ((hwf.space? hrs).live_bins now address.digest r hfound) hgiven hsome h _ _
  have hops : entries.puts.isEmpty = false := by
    cases entries with
    | nil => exact absurd h.nil_eq.symm hsome
    | cons => rfl
  rw [put, operate, hops, if_neg Bool.false_ne_true, write, write]
  cases s.access with
  | error e => exact .inl ⟨e, rfl, rfl⟩
  | ok doubt =>
    simp only [space_eq_ok_iff.mpr hrs, hfound, hdecide]
    cases Cell.operate now address address.digest entries.puts ⟨.update, generation, ttl⟩
        (some r) with
    | error e => exact .inl ⟨e, rfl, rfl⟩
    | ok x => exact .inr ⟨doubt, rs, x.1, x.2, hrs, rfl, rfl⟩

end Store

namespace Gateway

variable {g : Gateway} {now : Instant} {address : Address} {bins entries : Bins}

/-- On a live record an update of bins and operations that put each of them, in any order, come to
the same, whatever generation and time to live they ask for and whatever faults there are. They
succeed in the same cases, and otherwise fail with the same error; and they leave the record there
or not alike, with the same bins, generation and expiry. No other record differs, nor anything else
in the gateways that they leave. -/
theorem update_eq_puts (hwf : g.store.WellFormed)
    (hlive : (g.store.live? now address.ns address.digest).isSome) (hbins : Ordered.Sorted bins)
    (hsome : bins ≠ []) (h : entries.Perm bins) (p : WriteParameters) :
    let updated := g.updateRecord now address bins p
    let operated := g.operate now address entries.puts p
    updated.1 = operated.1.map (fun _ => ()) ∧
      (∀ ns d, (updated.2.store.record? ns d).map (·.content) =
        (operated.2.store.record? ns d).map (·.content)) ∧
      (∀ ns d, (ns, d) ≠ (address.ns, address.digest) →
        updated.2.store.record? ns d = operated.2.store.record? ns d) ∧
      updated.2 =
        { operated.2 with
          store := { operated.2.store with spaces := updated.2.store.spaces } } := by
  have hentries : entries ≠ [] := fun hnone => hsome (hnone ▸ h).nil_eq.symm
  have hupdate : g.updateRecord now address bins p =
      g.ofStoreCall (g.store.put now address bins (p.options .updateOnly)) :=
    if_neg fun hnone => hsome (List.isEmpty_iff.mp hnone)
  have hoperate : g.operate now address entries.puts p =
      g.ofStoreCall (g.store.operate now address entries.puts (p.options .update)) :=
    if_neg fun hnone => hentries (List.map_eq_nil_iff.mp (List.isEmpty_iff.mp hnone))
  intro updated operated
  simp only [updated, operated, hupdate, hoperate, ofStoreCall, WriteParameters.options]
  rcases g.store.put_cases_puts hwf hlive hbins hsome h p.generation p.ttl with
    ⟨e, hput, hops⟩ | ⟨doubt, rs, record, c, hrs, hput, hops⟩
  · rw [hput, hops]
    exact ⟨rfl, fun _ _ => rfl, fun _ _ _ => rfl, rfl⟩
  · rw [hput, hops]
    refine ⟨by cases doubt <;> rfl, fun ns d => ?_, fun ns d hne => ?_, rfl⟩
    · rw [Store.record?_setSpace, Store.record?_setSpace]
      split
      · exact Records.find?_change_underName rs address.digest d c address
      · rfl
    · have hother : ¬(ns = address.ns ∧ d = address.digest) := fun h => hne (Prod.ext h.1 h.2)
      rw [Store.record?_change_of_ne hrs hother, Store.record?_change_of_ne hrs hother]

/-- A record of a set that expires after five seconds. -/
def patched : Gateway where
  store := (Moment.run ⟨.empty {}, 0⟩
    [.put ⟨"test", some "s", .digest WriteCall.oneDigest⟩ [("a", .int 1), ("b", .int 2)]
      { ttl := some 5 }]).store
  scanLimits := {}
  tasks := { limits := {} }

/-- One bin is removed and another one added, by the digest of the record from outside its set. The
operations take the bins in the opposite order. -/
theorem update_eq_puts_outsideSet :
    let address : Address := ⟨"test", none, .digest WriteCall.oneDigest⟩
    let bins : Bins := [("a", .null), ("c", .int 3)]
    let updated := patched.updateRecord 1000 address bins { generation := some 1 }
    let operated := patched.operate 1000 address (Bins.puts bins.reverse) { generation := some 1 }
    updated.1 = .ok () ∧ updated.1 = operated.1.map (fun _ => ()) ∧
      (updated.2.store.record? "test" WriteCall.oneDigest).map (·.content) =
        (operated.2.store.record? "test" WriteCall.oneDigest).map (·.content) ∧
      (operated.2.store.record? "test" WriteCall.oneDigest).map (·.content) =
        some ([("b", .int 2), ("c", .int 3)], 2, some 5000) := by
  have hwf : patched.store.WellFormed := Moment.run_wellFormed (Store.empty_wellFormed {}) _
  have hbins : Ordered.Sorted [("a", Value.null), ("c", .int 3)] :=
    List.pairwise_pair.mpr (by decide)
  obtain ⟨hanswer, hcontent, -⟩ :=
    @update_eq_puts patched 1000 ⟨"test", none, .digest WriteCall.oneDigest⟩ _ _ hwf rfl hbins nofun
      (List.reverse_perm _) { generation := some 1 }
  exact ⟨rfl, hanswer, hcontent "test" WriteCall.oneDigest, rfl⟩

end Gateway
end RecordService
