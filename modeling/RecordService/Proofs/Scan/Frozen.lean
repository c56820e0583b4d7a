import RecordService.Proofs.Scan.Chain

/-!
# Scans of a store that nobody writes to

With the store, the clock and the size of the pages fixed, the answer to a call depends on its
token alone, so there is one chain and no other.

* `ScanChain.digests_frozen`: whatever the sizes of the pages, a chain returns what is selected.
* `ScanChain.answered_callAt_iff`: the one answer to a call.
* `ScanChain.Shows`: pages that show given records, on as few pages as they take.
* `ScanChain.one_chain`: one answer, and one chain behind it, are one chain.
* `ScanChain.shows_behind`: the one chain from behind a digest shows what is selected there.
* `ScanChain.complete_when_frozen`: so the one from the start shows every selected record once.
-/

namespace RecordService.ScanChain

variable {m : Moment} {rs : Records} {size : Nat}

/-- The scans of a chain that all look at the same moment return the selected records. -/
theorem digests_frozen {limits : ScanLimits} {sel : Selection} {calls : List ScanCall}
    (h : ScanChain limits sel none calls) (hwf : m.store.WellFormed)
    (hfrozen : ∀ c ∈ calls, c.moment = m) :
    ∃ rs, m.store.space? sel.ns = some rs ∧
      calls.flatMap (·.digests) = (rs.selected m.now sel).map (·.1) := by
  obtain ⟨c, hc, hanswered⟩ : ∃ c ∈ calls, c.Answered limits sel none := by
    cases h with
    | last answered _ => exact ⟨_, List.mem_cons_self, answered⟩
    | next answered _ _ => exact ⟨_, List.mem_cons_self, answered⟩
  have hwf' : ∀ c ∈ calls, c.moment.store.WellFormed := fun c hc => hfrozen c hc ▸ hwf
  obtain ⟨_, rs, -, -, hrs, -⟩ :=
    (ScanLimits.scan_eq_ok_iff (hwf' c hc) _ sel _ _ none _).mp hanswered
  rw [hfrozen c hc] at hrs
  obtain ⟨-, hasc, hspecs, hfind⟩ := h.covers hwf' (d := none) rfl
  have hselects : ∀ c ∈ calls, ∀ x r, c.moment.Selects sel x r ↔ (x, r) ∈ rs.selected m.now sel :=
    fun c hc x r => by rw [hfrozen c hc, Moment.selects_iff hrs]
  have hsorted := Records.selected_sorted (hwf.space? hrs).sorted none m.now sel
  refine ⟨rs, hrs, Ordered.eq_of_pairwise ?_ hasc (List.pairwise_map.mpr hsorted) fun x => ?_⟩
  · exact fun a b => Std.Asymm.asymm (r := fun a b : Digest => a < b) a b
  · constructor
    · intro hx
      obtain ⟨c, hc, hx⟩ := List.mem_flatMap.mp hx
      obtain ⟨shown, hshown, rfl⟩ := List.mem_map.mp hx
      obtain ⟨k, hspec⟩ := hspecs c hc
      obtain ⟨r, hr, -⟩ := hspec.selected shown hshown
      exact List.mem_map.mpr ⟨_, (hselects c hc _ r).mp hr, rfl⟩
    · intro hx
      obtain ⟨⟨x, r⟩, hr, rfl⟩ := List.mem_map.mp hx
      exact hfind x (fun c hc => ⟨r, (hselects c hc x r).mpr hr⟩) nofun

/-! ## Pages that show records -/

/-- The pages show the records, on as few pages as they take. -/
structure Shows (size : Nat) (records : List Record) (pages : List ScanPage) : Prop where
  /-- There is a page even if there are no records. -/
  length : pages.length = max 1 ((records.length + size - 1) / size)
  records : pages.flatMap (·.records) = records
  /-- All pages but the last are full and have a token. -/
  full : ∀ page ∈ pages.dropLast, page.records.length = size ∧ page.resume.isSome
  last : ∀ page ∈ pages.getLast?, page.resume = none

theorem Shows.single {records : List Record} (hpos : 1 ≤ size) (hle : records.length ≤ size) :
    Shows size records [⟨records, none⟩] where
  length := by
    have hdiv : (records.length + size - 1) / size ≤ 1 :=
      Nat.le_of_lt_succ (Nat.div_lt_of_lt_mul (by omega))
    rw [Nat.max_eq_left hdiv]
    rfl
  records := List.append_nil _
  full := by simp
  last := by simp

theorem Shows.cons {records : List Record} {pages : List ScanPage}
    (h : Shows size records pages) (page : ScanPage) (hfull : page.records.length = size)
    (hpos : 1 ≤ size) (hmore : records ≠ []) (htoken : page.resume.isSome) :
    Shows size (page.records ++ records) (page :: pages) where
  length := by
    have hlen : 1 ≤ records.length := List.length_pos_iff.mpr hmore
    have hone : 1 ≤ (records.length + size - 1) / size :=
      (Nat.le_div_iff_mul_le hpos).mpr (by omega)
    have hsucc : (size + records.length + size - 1) / size =
        (records.length + size - 1) / size + 1 := by
      rw [← Nat.add_div_right _ hpos]
      congr 1
      omega
    rw [List.length_cons, h.length, List.length_append, hfull, hsucc]
    omega
  records := by rw [List.flatMap_cons, h.records]
  full := by
    cases pages with
    | nil => simp
    | cons p ps =>
      rw [List.dropLast_cons_cons]
      exact List.forall_mem_cons.mpr ⟨⟨hfull, htoken⟩, h.full⟩
  last := by
    have hne : pages ≠ [] := by
      have hlen := h.length
      rintro rfl
      simp at hlen
      omega
    rw [List.getLast?_cons_of_ne_nil hne]
    exact h.last

/-! ## The one chain -/

/-- The call of a moment that asks for a size and gets a page. -/
def callAt (m : Moment) (bins : Option (List String)) (size : Nat) (page : ScanPage) : ScanCall :=
  ⟨m, bins, some size, page⟩

variable (limits : ScanLimits) {sel : Selection}

/-- There is one answer to such a call: the first of the selected records behind the digest. -/
theorem answered_callAt_iff (h : m.store.WellFormed) (haccess : m.store.accessRead = .ok ())
    (hspace : m.store.space? sel.ns = some rs) (hpos : 1 ≤ size) (hmax : size ≤ limits.maxSize)
    (bins : Option (List String)) (d : Option Digest) (page : ScanPage) :
    (callAt m bins size page).Answered limits sel (d.map ResumeToken.ofDigest) ↔
      page = ((rs.behind d).selected m.now sel).page size (Records.shown sel.ns bins m.now) := by
  have hsize : limits.pageSize (some size) = .ok size :=
    ScanLimits.pageSize_eq_ok_iff.mpr ⟨rfl, hpos, hmax⟩
  unfold ScanCall.Answered callAt
  rw [ScanLimits.scan_eq_ok_iff h, haccess, hspace, hsize]
  constructor
  · rintro ⟨_, _, hs, -, hr, hp⟩
    cases hs
    cases hr
    exact hp
  · intro hp
    exact ⟨size, rs, rfl, rfl, rfl, hp⟩

/-- If a call has one answer, and one chain starts at the token of that answer, then one chain
starts with the call. -/
theorem one_chain {token : Option String} {bins : Option (List String)} {p : ScanPage}
    {pages : List ScanPage}
    (hanswer : ∀ page, (callAt m bins size page).Answered limits sel token ↔ page = p)
    (hrest : (p.resume = none ∧ pages = []) ∨ ∃ t, p.resume = some t ∧
      ∀ q : List ScanPage,
        ScanChain limits sel (some t) (q.map (callAt m bins size)) ↔ q = pages)
    (q : List ScanPage) :
    ScanChain limits sel token (q.map (callAt m bins size)) ↔ q = p :: pages := by
  cases q with
  | nil => exact iff_of_false not_nil nofun
  | cons page q =>
    rw [List.map_cons, cons_iff, hanswer, List.cons.injEq]
    refine and_congr_right ?_
    rintro rfl
    rcases hrest with ⟨hnone, rfl⟩ | ⟨t, ht, hchain⟩
    · simp [callAt, hnone]
    · simp [callAt, ht, hchain]

/-- One chain starts behind a digest, and it shows what is selected there. -/
theorem shows_behind (h : m.store.WellFormed) (haccess : m.store.accessRead = .ok ())
    (hspace : m.store.space? sel.ns = some rs) (hpos : 1 ≤ size) (hmax : size ≤ limits.maxSize)
    (bins : Option (List String)) (d : Option Digest) :
    ∃ pages, (∀ q : List ScanPage,
        ScanChain limits sel (d.map ResumeToken.ofDigest) (q.map (callAt m bins size)) ↔
          q = pages) ∧
      Shows size
        (((rs.behind d).selected m.now sel).map (Records.shown sel.ns bins m.now)) pages := by
  have hsorted : Ordered.Sorted rs := (h.records _ (Ordered.mem_of_find? hspace)).sorted
  generalize hleft : (rs.behind d).selected m.now sel = left
  induction hn : left.length using Nat.strongRecOn generalizing d left with
  | _ n ih =>
    have hanswer := answered_callAt_iff limits h haccess hspace hpos hmax bins d
    rw [hleft] at hanswer
    rcases Records.page_cases hpos left (Records.shown sel.ns bins m.now) with
      ⟨hle, hpage⟩ | ⟨front, last, rest, rfl, hrest, hfront, hpage⟩
    · -- All fits on one page, and there is no token to follow.
      rw [hpage] at hanswer
      exact ⟨_, one_chain limits hanswer (.inl ⟨rfl, rfl⟩), .single hpos (by simpa using hle)⟩
    · -- The page is full; the others are the chain behind its last record.
      rw [hpage] at hanswer
      have hbehind := Records.selected_behind_last hsorted hleft
      obtain ⟨pages, hchain, hshows⟩ := ih rest.length
        (by rw [← hn, List.length_append, List.length_cons]; omega) (some last.1) rest hbehind rfl
      have hfull : ((front ++ [last]).map (Records.shown sel.ns bins m.now)).length = size := by
        simpa using hfront
      rw [List.append_cons, List.map_append]
      exact ⟨_, one_chain limits hanswer (.inr ⟨_, rfl, hchain⟩),
        hshows.cons ⟨_, some (ResumeToken.ofDigest last.1)⟩ hfull hpos (by simpa using hrest) rfl⟩

variable (sel) in
/-- There is one chain of scans of a namespace with pages of a given size, and it shows each live
record that is selected once, in digest order. -/
theorem complete_when_frozen (h : m.store.WellFormed) (hfault : m.store.fault = none)
    (hup : ∃ node ∈ m.store.settings.nodes, m.store.isUp node)
    (hspace : m.store.space? sel.ns = some rs) (hpos : 1 ≤ size) (hmax : size ≤ limits.maxSize)
    (bins : Option (List String)) :
    ∃ pages,
      (∀ q : List ScanPage,
        ScanChain limits sel none (q.map (callAt m bins size)) ↔ q = pages) ∧
      Shows size ((rs.selected m.now sel).map (Records.shown sel.ns bins m.now)) pages ∧
      ((pages.flatMap (·.records)).map (·.digest)).Pairwise (· < ·) := by
  have haccess : m.store.accessRead = .ok () := by
    have hany : m.store.settings.nodes.any m.store.isUp = true := List.any_eq_true.mpr hup
    simp [Store.accessRead, Store.access, hany, hfault, Except.bind]
  obtain ⟨pages, hchain, hshows⟩ :=
    shows_behind limits h haccess hspace hpos hmax bins none
  refine ⟨pages, hchain, hshows, ?_⟩
  have hsorted : Ordered.Sorted rs := (h.records _ (Ordered.mem_of_find? hspace)).sorted
  rw [hshows.records, List.pairwise_map, List.pairwise_map]
  exact Records.selected_sorted hsorted none m.now sel

/-- Two of four records, on pages of one, with one of their bins. -/
theorem complete_when_frozen_aboveThree :
    let pages : List ScanPage :=
      [⟨[numbered 2 [("n", .int 5)]], some (ResumeToken.ofDigest (digestOfByte 2))⟩,
        ⟨[numbered 4 [("n", .int 7)]], none⟩]
    (∀ q : List ScanPage,
        ScanChain {} aboveThree none (q.map (callAt fourRecords (some ["n"]) 1)) ↔ q = pages) ∧
      Shows 1 [numbered 2 [("n", .int 5)], numbered 4 [("n", .int 7)]] pages := by
  intro pages
  have hanswer (d : Option Digest) (page : ScanPage) :
      (callAt fourRecords (some ["n"]) 1 page).Answered {} aboveThree
        (d.map ResumeToken.ofDigest) ↔ _ :=
    answered_callAt_iff {} fourRecords_wellFormed rfl rfl (Nat.le_refl 1) (by decide) _ d page
  have hpages : ScanChain {} aboveThree none (pages.map (callAt fourRecords (some ["n"]) 1)) :=
    .next ((hanswer none _).mpr rfl) rfl (.last ((hanswer (some (digestOfByte 2)) _).mpr rfl) rfl)
  obtain ⟨found, hchain, hshows, -⟩ := complete_when_frozen {} aboveThree fourRecords_wellFormed
    rfl ⟨"node-1", by decide, by decide⟩ rfl (Nat.le_refl 1) (by decide) (some ["n"])
  obtain rfl : pages = found := (hchain pages).mp hpages
  exact ⟨hchain, hshows⟩

end RecordService.ScanChain
