import RecordService.Gateway.Scan
import RecordService.Proofs.Store.WellFormed

/-!
# One page of a scan

* `Bins.project_eq_restrict`: the bins asked for are those of the stored ones whose name is asked
  for, whatever the order and the repetitions of the names.
* `Records.page_cases`: a page holds all that is left and no token, or it is full, names its last
  record, and leaves some records behind it.
* `Records.selected_behind_last`: what lies behind the last record of a page is what it has left.
* `ScanLimits.scan_eq_ok_iff`: when there is a page, and what is on it.
-/

namespace RecordService

/-! ## Bins -/

namespace Bins

/-- The bins whose name is among the given ones; without names, all. -/
def restrict (names : Option (List String)) (bins : Bins) : Bins :=
  match names with
  | none => bins
  | some names => bins.filter fun e => names.contains e.1

theorem find?_project (names : List String) (bins : Bins) (n : String) :
    Ordered.find? n (bins.project (some names)) =
      if n ∈ names then Ordered.find? n bins else none := by
  have hfound : ∀ e ∈ names.filterMap fun n => (Ordered.find? n bins).map fun v => (n, v),
      Ordered.find? e.1 bins = some e.2 := by
    intro e he
    obtain ⟨n', -, he⟩ := List.mem_filterMap.mp he
    obtain ⟨v, hv, rfl⟩ := Option.map_eq_some_iff.mp he
    exact hv
  unfold project Ordered.ofEntries
  rw [Ordered.find?_foldl_insert (f := fun n => Ordered.find? n bins) hfound]
  by_cases hn : n ∈ names
  · rw [if_pos hn]
    cases hf : Ordered.find? n bins with
    | none => simp [Ordered.find?]
    | some v =>
      refine if_pos (List.mem_map.mpr ⟨(n, v), List.mem_filterMap.mpr ⟨n, hn, ?_⟩, rfl⟩)
      rw [hf]
      rfl
  · rw [if_neg hn]
    refine if_neg fun hmem => ?_
    obtain ⟨e, he, rfl⟩ := List.mem_map.mp hmem
    obtain ⟨n', hn', he⟩ := List.mem_filterMap.mp he
    obtain ⟨v, -, rfl⟩ := Option.map_eq_some_iff.mp he
    exact hn hn'

theorem project_eq_restrict {bins : Bins} (h : Ordered.Sorted bins)
    (names : Option (List String)) : bins.project names = bins.restrict names := by
  cases names with
  | none => rfl
  | some names =>
    refine Ordered.Sorted.ext (Ordered.sorted_ofEntries _) (h.filter _) fun n => ?_
    have hr := Ordered.find?_filter_key (fun n => names.contains n) n bins
    rw [find?_project, restrict, hr]
    simp

end Bins

/-! ## Pages of a list -/

namespace Records

variable {rs : Records} {now : Instant} {sel : Selection}

/-- A stored record as a page shows it. -/
def shown (ns : String) (bins : Option (List String)) (now : Instant)
    (e : Digest × StoredRecord) : Record :=
  e.2.toRecord ns e.1 (Bins.restrict bins e.2.bins) now

theorem mem_selected {e : Digest × StoredRecord} :
    e ∈ rs.selected now sel ↔
      e ∈ rs ∧ e.2.isLive now ∧ e.2.isIn sel.set ∧ e.2.passes sel.filter := by
  simp [selected, and_assoc]

theorem mem_behind {d : Option Digest} {e : Digest × StoredRecord} :
    e ∈ rs.behind d ↔ e ∈ rs ∧ ∀ k ∈ d, k < e.1 := by
  cases d <;> simp [behind]

theorem selected_sorted (h : Ordered.Sorted rs) (d : Option Digest) (now : Instant)
    (sel : Selection) : Ordered.Sorted ((rs.behind d).selected now sel) := by
  cases d with
  | none => exact h.filter _
  | some d => exact (h.filter _).filter _

theorem page_congr {f g : Digest × StoredRecord → Record} (h : ∀ e ∈ rs, f e = g e)
    (size : Nat) : rs.page size f = rs.page size g := by
  have hmap : (rs.take size).map f = (rs.take size).map g :=
    List.map_congr_left fun e he => h e (List.mem_of_mem_take he)
  simp only [page, hmap]

theorem page_of_length_le {size : Nat} (h : rs.length ≤ size)
    (view : Digest × StoredRecord → Record) : rs.page size view = ⟨rs.map view, none⟩ := by
  simp [page, List.take_of_length_le h, h]

theorem page_of_append {front rest : Records} {last : Digest × StoredRecord} {size : Nat}
    (hsize : front.length + 1 = size) (hrest : rest ≠ [])
    (view : Digest × StoredRecord → Record) :
    page size view (front ++ last :: rest) =
      ⟨(front ++ [last]).map view, some (ResumeToken.ofDigest last.1)⟩ := by
  have htake : (front ++ last :: rest).take size = front ++ [last] := by
    rw [← hsize, List.take_length_add_append]
    rfl
  have hdrop : (front ++ last :: rest).drop size = rest := by
    rw [← hsize, List.drop_length_add_append]
    rfl
  simp [page, htake, hdrop, hrest]

/-- A page holds all there is and no token, or it is full and leaves some records behind its last
one, which the token names. -/
theorem page_cases {size : Nat} (hsize : 1 ≤ size) (rs : Records)
    (view : Digest × StoredRecord → Record) :
    (rs.length ≤ size ∧ rs.page size view = ⟨rs.map view, none⟩) ∨
    ∃ front last rest, rs = front ++ last :: rest ∧ rest ≠ [] ∧ front.length + 1 = size ∧
      rs.page size view =
        ⟨(front ++ [last]).map view, some (ResumeToken.ofDigest last.1)⟩ := by
  by_cases hle : rs.length ≤ size
  · exact .inl ⟨hle, page_of_length_le hle view⟩
  · have hlt : size - 1 < rs.length := by omega
    have hsplit : rs = rs.take (size - 1) ++ rs[size - 1] :: rs.drop (size - 1 + 1) := by
      rw [← List.drop_eq_getElem_cons hlt, List.take_append_drop]
    have hrest : rs.drop (size - 1 + 1) ≠ [] := by
      rw [Ne, List.drop_eq_nil_iff]
      omega
    have hlen : (rs.take (size - 1)).length + 1 = size := by
      rw [List.length_take]
      omega
    refine .inr ⟨_, _, _, hsplit, hrest, hlen, ?_⟩
    conv => lhs; rw [hsplit]
    exact page_of_append hlen hrest view

/-- A page shows the first of the records: all of them and no token, or those up to the one that
its token names. -/
theorem page_shown {size : Nat} (hsize : 1 ≤ size) (rs : Records)
    (view : Digest × StoredRecord → Record) :
    ∃ shown : Records, shown.Sublist rs ∧ (rs.page size view).records = shown.map view ∧
      (((rs.page size view).resume = none ∧ shown = rs) ∨
        ∃ front last rest, (rs.page size view).resume = some (ResumeToken.ofDigest last.1) ∧
          shown = front ++ [last] ∧ rs = front ++ last :: rest) := by
  rcases page_cases hsize rs view with ⟨-, hpage⟩ | ⟨front, last, rest, rfl, -, -, hpage⟩
  · rw [hpage]
    exact ⟨rs, List.Sublist.refl _, rfl, .inl ⟨rfl, rfl⟩⟩
  · rw [hpage]
    refine ⟨front ++ [last], ?_, rfl, .inr ⟨front, last, rest, rfl, rfl, rfl⟩⟩
    exact (List.Sublist.refl front).append ((List.nil_sublist rest).cons_cons last)

/-- Behind the last record of a page there is what the page has left. -/
theorem selected_behind_last (h : Ordered.Sorted rs) {d : Option Digest}
    {front rest : Records} {last : Digest × StoredRecord}
    (hs : (rs.behind d).selected now sel = front ++ last :: rest) :
    (rs.behind (some last.1)).selected now sel = rest := by
  have hsorted := selected_sorted h d now sel
  have hlast : ∀ k ∈ d, k < last.1 := by
    have hmem : last ∈ (rs.behind d).selected now sel := hs ▸ by simp
    exact (mem_behind.mp (mem_selected.mp hmem).1).2
  -- Whatever is behind `last` is behind `d`.
  have hcut : (rs.behind (some last.1)).selected now sel =
      ((rs.behind d).selected now sel).filter fun e => last.1 < e.1 := by
    cases d with
    | none =>
      simp only [behind, selected, List.filter_filter]
      exact List.filter_congr fun e _ => Bool.and_comm _ _
    | some k =>
      simp only [behind, selected, List.filter_filter]
      refine List.filter_congr fun e _ => ?_
      have hk : last.1 < e.1 → k < e.1 := Digest.lt_trans (hlast k rfl)
      by_cases he : last.1 < e.1
      · simp [he, hk he]
      · simp [he]
  rw [hs] at hsorted hcut
  rw [hcut, hsorted.filter_behind]

end Records

/-! ## Answers -/

/-- There is a page if the store answers, and its namespace and token make sense. -/
theorem Store.scan_eq_ok_iff {s : Store} {now : Instant} {request : ScanRequest}
    {page : ScanPage} :
    s.scan now request = .ok page ↔
      ∃ rs start, s.accessRead = .ok () ∧ request.size ≠ 0 ∧
        s.space? request.selection.ns = some rs ∧
        ResumeToken.digestOf request.resume = .ok start ∧
        page = ((rs.behind start).selected now request.selection).page request.size fun e =>
          e.2.toRecord request.selection.ns e.1 (e.2.bins.project request.bins) now := by
  unfold Store.scan
  constructor
  · intro h
    obtain ⟨_, haccess, h⟩ := bind_eq_ok_iff.mp h
    split at h
    · cases h
    · rename_i hsize
      obtain ⟨rs, hrs, h⟩ := bind_eq_ok_iff.mp h
      obtain ⟨start, hstart, h⟩ := bind_eq_ok_iff.mp h
      cases h
      exact ⟨rs, start, haccess, hsize, Store.space_eq_ok_iff.mp hrs, hstart, rfl⟩
  · rintro ⟨rs, start, haccess, hsize, hrs, hstart, rfl⟩
    refine bind_eq_ok_iff.mpr ⟨(), haccess, ?_⟩
    rw [if_neg hsize]
    have hspace := Store.space_eq_ok_iff.mpr hrs
    exact bind_eq_ok_iff.mpr ⟨rs, hspace, bind_eq_ok_iff.mpr ⟨start, hstart, rfl⟩⟩

namespace ScanLimits

variable {limits : ScanLimits}

theorem pageSize_eq_ok_iff {requested : Option Nat} {size : Nat} :
    limits.pageSize requested = .ok size ↔
      requested.getD limits.defaultSize = size ∧ 1 ≤ size ∧ size ≤ limits.maxSize := by
  unfold pageSize
  simp only []
  split
  · rename_i h
    constructor
    · intro hs; cases hs; exact ⟨rfl, h⟩
    · rintro ⟨hs, -⟩; exact congrArg Except.ok hs
  · rename_i h
    constructor
    · intro hs; cases hs
    · rintro ⟨rfl, hs⟩; exact absurd hs h

/-- There is a page if the size is within the limits, the store answers and it has the namespace.
It shows the selected records behind the digest of the token. -/
theorem scan_eq_ok_iff {s : Store} (h : s.WellFormed) (now : Instant) (sel : Selection)
    (bins : Option (List String)) (requested : Option Nat) (d : Option Digest)
    (page : ScanPage) :
    limits.scan s now sel bins requested (d.map ResumeToken.ofDigest) = .ok page ↔
      ∃ size rs, limits.pageSize requested = .ok size ∧ s.accessRead = .ok () ∧
        s.space? sel.ns = some rs ∧
        page = ((rs.behind d).selected now sel).page size (Records.shown sel.ns bins now) := by
  have htoken : (d.map ResumeToken.ofDigest).filter (· ≠ "") = d.map ResumeToken.ofDigest := by
    cases d <;> simp [ResumeToken.ofDigest_ne_empty]
  have hview : ∀ rs, s.space? sel.ns = some rs → ∀ size,
      ((rs.behind d).selected now sel).page size (fun e =>
          e.2.toRecord sel.ns e.1 (e.2.bins.project bins) now) =
        ((rs.behind d).selected now sel).page size (Records.shown sel.ns bins now) := by
    refine fun rs hrs size => Records.page_congr (fun e he => ?_) size
    have hmem := (Records.mem_behind.mp (Records.mem_selected.mp he).1).1
    have hwf := h.records _ (Ordered.mem_of_find? hrs)
    rw [Records.shown, Bins.project_eq_restrict (hwf.bins e hmem)]
  unfold scan
  simp only [bind_eq_ok_iff, mapError_eq_ok_iff, Store.scan_eq_ok_iff, htoken,
    ResumeToken.digestOf_map_ofDigest]
  constructor
  · rintro ⟨size, hsize, rs, _, haccess, -, hspace, hstart, hp⟩
    cases hstart
    exact ⟨size, rs, hsize, haccess, hspace, hp.trans (hview rs hspace size)⟩
  · rintro ⟨size, rs, hsize, haccess, hspace, hp⟩
    have hpos : size ≠ 0 := Nat.ne_of_gt (pageSize_eq_ok_iff.mp hsize).2.1
    exact ⟨size, hsize, rs, d, haccess, hpos, hspace, rfl, hp.trans (hview rs hspace size).symm⟩

end ScanLimits
end RecordService
