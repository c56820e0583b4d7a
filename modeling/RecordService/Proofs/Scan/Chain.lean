import RecordService.Proofs.Scan.Page
import RecordService.Proofs.Store.Run

/-!
# Chains of scans

A chain of scans starts somewhere, follows each token and ends with a page that has none. Between
its calls anything may happen to the store, so nothing can be said of what a call finds there.
What is known is where a call looks: strictly behind the last digest of the call before.

* `ScanChain`: the chains, from a token on.
* `ScanCall.Answered.spec`: what one call does, in terms of the digest behind which it looks.
* `ScanChain.covers`: what a chain does, by induction: the digests ascend, and no digest that every
  call could have found is missing.
* `ScanChain.complete_under_writes`: so a scan from the start returns no record twice and misses
  none that is there all along, whatever is written in the meantime.
-/

namespace RecordService

/-- There is such a record at the digest, it has not expired, and a selection is about it. -/
structure Moment.Selects (m : Moment) (sel : Selection) (d : Digest) (r : StoredRecord) :
    Prop where
  stored : ∃ rs, m.store.space? sel.ns = some rs ∧ (d, r) ∈ rs
  live : r.isLive m.now
  inSet : r.isIn sel.set
  passes : r.passes sel.filter

theorem Moment.selects_iff {m : Moment} {sel : Selection} {rs : Records}
    (h : m.store.space? sel.ns = some rs) {d : Digest} {r : StoredRecord} :
    m.Selects sel d r ↔ (d, r) ∈ rs.selected m.now sel := by
  rw [Records.mem_selected]
  constructor
  · rintro ⟨⟨rs', hrs', hmem⟩, hlive, hin, hpass⟩
    rw [h] at hrs'
    cases hrs'
    exact ⟨hmem, hlive, hin, hpass⟩
  · rintro ⟨hmem, hlive, hin, hpass⟩
    exact ⟨⟨rs, h, hmem⟩, hlive, hin, hpass⟩

/-- A call of a scan: the moment it is made at, what it asks for, and the page that it gets. -/
structure ScanCall where
  moment : Moment
  bins : Option (List String)
  size : Option Nat
  page : ScanPage

namespace ScanCall

variable {limits : ScanLimits} {sel : Selection} {c : ScanCall}

/-- The page is the answer to the call that gives a token. -/
def Answered (limits : ScanLimits) (sel : Selection) (token : Option String) (c : ScanCall) :
    Prop :=
  limits.scan c.moment.store c.moment.now sel c.bins c.size token = .ok c.page

/-- The digests on the page. -/
def digests (c : ScanCall) : List Digest := c.page.records.map (·.digest)

/-- What a page is for a call that looks behind a digest, and where the next one looks. -/
structure Spec (sel : Selection) (d : Option Digest) (c : ScanCall) : Prop where
  ascending : c.digests.Pairwise (· < ·)
  behind : ∀ x ∈ c.digests, ∀ k ∈ d, k < x
  /-- What is on the page is selected at the time of the call. -/
  selected : ∀ r ∈ c.page.records, ∃ stored, c.moment.Selects sel r.digest stored ∧
    r = Records.shown sel.ns c.bins c.moment.now (r.digest, stored)
  /-- Without a token nothing that is selected is behind the page. A token names the last digest
  of the page, and nothing that is selected is left out up to there. -/
  cut : (c.page.resume = none ∧
      ∀ x r, c.moment.Selects sel x r → (∀ k ∈ d, k < x) → x ∈ c.digests) ∨
    ∃ k, c.page.resume = some (ResumeToken.ofDigest k) ∧ (∀ x ∈ c.digests, ¬k < x) ∧
      k ∈ c.digests ∧
      ∀ x r, c.moment.Selects sel x r → (∀ k ∈ d, k < x) → ¬k < x → x ∈ c.digests

/-- A call looks at the entries behind the digest that are selected at its time, in order. -/
theorem Answered.page_eq {d : Option Digest}
    (h : c.Answered limits sel (d.map ResumeToken.ofDigest))
    (hwf : c.moment.store.WellFormed) :
    ∃ size left, 1 ≤ size ∧ Ordered.Sorted left ∧
      c.page = Records.page size (Records.shown sel.ns c.bins c.moment.now) left ∧
      ∀ x r, (x, r) ∈ left ↔ c.moment.Selects sel x r ∧ ∀ k ∈ d, k < x := by
  obtain ⟨size, rs, hsize, -, hspace, hpage⟩ :=
    (ScanLimits.scan_eq_ok_iff hwf _ _ _ _ _ _).mp h
  have hsorted : Ordered.Sorted rs := (hwf.records _ (Ordered.mem_of_find? hspace)).sorted
  refine ⟨size, _, (ScanLimits.pageSize_eq_ok_iff.mp hsize).2.1,
    Records.selected_sorted hsorted d c.moment.now sel, hpage, fun x r => ?_⟩
  rw [Moment.selects_iff hspace, Records.mem_selected, Records.mem_selected,
    Records.mem_behind]
  exact ⟨fun ⟨⟨hx, hd⟩, hs⟩ => ⟨⟨hx, hs⟩, hd⟩, fun ⟨⟨hx, hs⟩, hd⟩ => ⟨⟨hx, hd⟩, hs⟩⟩

theorem digests_eq_of_records {now : Instant} {shown : Records}
    (h : c.page.records = shown.map (Records.shown sel.ns c.bins now)) :
    c.digests = shown.map (·.1) := by
  rw [digests, h, List.map_map]
  rfl

theorem Answered.spec {d : Option Digest}
    (h : c.Answered limits sel (d.map ResumeToken.ofDigest))
    (hwf : c.moment.store.WellFormed) : c.Spec sel d := by
  obtain ⟨size, left, hpos, hleft, hpage, hmem⟩ := h.page_eq hwf
  -- Some first entries of `left` are on the page, so it is in order, and they are selected.
  obtain ⟨shown, hsub, hrec, hcut⟩ :=
    Records.page_shown hpos left (Records.shown sel.ns c.bins c.moment.now)
  rw [← hpage] at hrec hcut
  have hshown : ∀ e ∈ shown, c.moment.Selects sel e.1 e.2 ∧ ∀ k ∈ d, k < e.1 :=
    fun e he => (hmem e.1 e.2).mp (hsub.subset he)
  have hdig := digests_eq_of_records hrec
  refine ⟨?_, ?_, ?_, ?_⟩
  · rw [hdig]
    exact List.pairwise_map.mpr (hleft.sublist hsub)
  · rw [hdig]
    exact List.forall_mem_map.mpr fun e he => (hshown e he).2
  · rw [hrec]
    exact List.forall_mem_map.mpr fun e he => ⟨e.2, (hshown e he).1, rfl⟩
  · rw [hdig]
    rcases hcut with ⟨hnone, rfl⟩ | ⟨front, last, rest, htoken, rfl, rfl⟩
    · refine .inl ⟨hnone, fun x r hx hd => ?_⟩
      exact List.mem_map.mpr ⟨(x, r), (hmem x r).mpr ⟨hx, hd⟩, rfl⟩
    · refine .inr ⟨last.1, htoken, ?_, by simp, fun x r hx hd hle => ?_⟩
      · exact List.forall_mem_map.mpr fun e he =>
          (hleft.mem_front_iff (hsub.subset he)).mp he
      · have hleft' := (hmem x r).mpr ⟨hx, hd⟩
        exact List.mem_map.mpr ⟨(x, r), (hleft.mem_front_iff hleft').mpr hle, rfl⟩

end ScanCall

/-! ## Chains -/

/-- The calls that follow each other's tokens, from a given one on, until a page has none. -/
inductive ScanChain (limits : ScanLimits) (sel : Selection) :
    Option String → List ScanCall → Prop
  | last {token : Option String} {c : ScanCall} (answered : c.Answered limits sel token)
      (done : c.page.resume = none) : ScanChain limits sel token [c]
  | next {token : Option String} {t : String} {c : ScanCall} {rest : List ScanCall}
      (answered : c.Answered limits sel token) (more : c.page.resume = some t)
      (chain : ScanChain limits sel (some t) rest) : ScanChain limits sel token (c :: rest)

namespace ScanChain

variable {limits : ScanLimits} {sel : Selection} {token : Option String} {c : ScanCall}
  {calls rest : List ScanCall}

theorem not_nil : ¬ScanChain limits sel token [] := nofun

/-- A chain goes on exactly where its first page has a token. -/
theorem cons_iff :
    ScanChain limits sel token (c :: rest) ↔
      c.Answered limits sel token ∧
        ((c.page.resume = none ∧ rest = []) ∨
          ∃ t, c.page.resume = some t ∧ ScanChain limits sel (some t) rest) := by
  constructor
  · intro h
    cases h with
    | last answered done => exact ⟨answered, .inl ⟨done, rfl⟩⟩
    | next answered more chain => exact ⟨answered, .inr ⟨_, more, chain⟩⟩
  · rintro ⟨answered, ⟨done, rfl⟩ | ⟨t, more, chain⟩⟩
    · exact .last answered done
    · exact .next answered more chain

/-- A chain from behind a digest goes up from there, and passes over nothing that is selected at
all of its calls. -/
theorem covers (h : ScanChain limits sel token calls)
    (hwf : ∀ c ∈ calls, c.moment.store.WellFormed) {d : Option Digest}
    (hd : token = d.map ResumeToken.ofDigest) :
    (∀ x ∈ calls.flatMap (·.digests), ∀ k ∈ d, k < x) ∧
      (calls.flatMap (·.digests)).Pairwise (· < ·) ∧
      (∀ c ∈ calls, ∃ k, c.Spec sel k) ∧
      ∀ x, (∀ c ∈ calls, ∃ r, c.moment.Selects sel x r) → (∀ k ∈ d, k < x) →
        x ∈ calls.flatMap (·.digests) := by
  induction h generalizing d with
  | @last token c answered done =>
    subst hd
    have hspec := answered.spec (hwf c List.mem_cons_self)
    simp only [List.flatMap_singleton, List.forall_mem_singleton]
    refine ⟨hspec.behind, hspec.ascending, ⟨d, hspec⟩, fun x ⟨r, hx⟩ hlt => ?_⟩
    rcases hspec.cut with ⟨-, hall⟩ | ⟨k, ht, -⟩
    · exact hall x r hx hlt
    · rw [done] at ht
      cases ht
  | @next token t c rest answered more chain ih =>
    subst hd
    have hspec := answered.spec (hwf c List.mem_cons_self)
    rcases hspec.cut with ⟨hnone, -⟩ | ⟨k, ht, hle, hk, hall⟩
    · rw [hnone] at more
      cases more
    · -- The rest of the chain starts behind `k`, the last digest on the page.
      have htoken : some t = (some k).map ResumeToken.ofDigest := by rw [← more, ht]; rfl
      obtain ⟨hbehind, hasc, hspecs, hfind⟩ :=
        ih (fun c hc => hwf c (List.mem_cons_of_mem _ hc)) htoken
      have hjoin : ∀ x ∈ c.digests, ∀ y ∈ rest.flatMap (·.digests), x < y := by
        intro x hx y hy
        have hy := hbehind y hy k rfl
        by_cases hxk : x = k
        · exact hxk ▸ hy
        · exact Digest.lt_trans (Digest.lt_of_not_lt (hle x hx) hxk) hy
      simp only [List.flatMap_cons, List.forall_mem_cons]
      refine ⟨fun x hx j hj => ?_, ?_, ⟨⟨d, hspec⟩, hspecs⟩, fun x ⟨⟨r, hx⟩, hrest⟩ hlt => ?_⟩
      · rcases List.mem_append.mp hx with hx | hx
        · exact hspec.behind x hx j hj
        · exact Digest.lt_trans (hspec.behind k hk j hj) (hbehind x hx k rfl)
      · exact List.pairwise_append.mpr ⟨hspec.ascending, hasc, hjoin⟩
      · by_cases hkx : k < x
        · exact List.mem_append_right _ (hfind x hrest fun _ hk => by cases hk; exact hkx)
        · exact List.mem_append_left _ (hall x r hx hlt hkx)

/-- Whatever is written between the calls of a scan, it goes through the digests upwards, so that
no record is returned twice; what it returns was there, live, and selected at the call that returned
it; and a record that is so at every call is returned exactly once. -/
theorem complete_under_writes {start : Moment} (hstart : start.store.WellFormed)
    (htime : start.LeadsThrough (calls.map (·.moment))) (h : ScanChain limits sel none calls) :
    (calls.flatMap (·.digests)).Pairwise (· < ·) ∧
      (∀ c ∈ calls, ∀ r ∈ c.page.records, ∃ stored, c.moment.Selects sel r.digest stored ∧
        r = Records.shown sel.ns c.bins c.moment.now (r.digest, stored)) ∧
      ∀ d, (∀ c ∈ calls, ∃ stored, c.moment.Selects sel d stored) →
        (calls.flatMap (·.digests)).count d = 1 := by
  have hwf : ∀ c ∈ calls, c.moment.store.WellFormed := fun c hc =>
    htime.wellFormed hstart _ (List.mem_map.mpr ⟨c, hc, rfl⟩)
  obtain ⟨-, hasc, hspecs, hfind⟩ := h.covers hwf (d := none) rfl
  refine ⟨hasc, fun c hc r hr => ?_, fun d hd => ?_⟩
  · obtain ⟨k, hspec⟩ := hspecs c hc
    exact hspec.selected r hr
  · have hmem := hfind d hd nofun
    have hnodup : (calls.flatMap (·.digests)).Nodup := by
      refine hasc.imp fun {a b} hab => ?_
      rintro rfl
      exact Digest.lt_irrefl a hab
    rw [hnodup.count, if_pos hmem]

/-! ### Writes between two pages

The record that the token names is deleted, and another one put, before the next page is asked
for. -/

/-- A digest of one byte, over and over. -/
def digestOfByte (b : UInt8) : Digest := ⟨List.replicate digestLength b, rfl⟩

/-- The address by such a digest. -/
def addressOfByte (set : Option String) (b : UInt8) : Address :=
  ⟨"test", set, .digest (digestOfByte b)⟩

/-- Three records of a set and one outside it have been written. -/
def fourRecords : Moment :=
  Moment.run ⟨.empty {}, 0⟩
    [.put (addressOfByte (some "demo") 4) [("m", .bool true), ("n", .int 7)] {},
      .put (addressOfByte (some "demo") 1) [("n", .int 1)] {},
      .put (addressOfByte (some "demo") 2) [("n", .int 5)] {},
      .put (addressOfByte none 3) [("n", .int 5)] {}]

theorem fourRecords_wellFormed : fourRecords.store.WellFormed :=
  Moment.run_wellFormed (Store.empty_wellFormed {}) _

/-- Two of them are in the set and have a number above three. -/
def aboveThree : Selection :=
  ⟨"test", some "demo", some (.compare .gt (.bin "n" .int) (.literal (.int 3)))⟩

/-- Such a record as a page shows it. -/
def numbered (b : UInt8) (bins : Bins) : Record :=
  ⟨addressOfByte (some "demo") b, digestOfByte b, bins, 1, none⟩

/-- The events between the pages. -/
def betweenPages : List StoreEvent :=
  [.delete (addressOfByte (some "demo") 2) {},
    .put (addressOfByte (some "demo") 5) [("n", .int 9)] {}]

/-- A page of one record, and behind it a larger one. -/
def twoCalls : List ScanCall :=
  [⟨fourRecords, some ["n"], some 1, [numbered 2 [("n", .int 5)]],
      some (ResumeToken.ofDigest (digestOfByte 2))⟩,
    ⟨fourRecords.run betweenPages, none, none,
      [numbered 4 [("m", .bool true), ("n", .int 7)], numbered 5 [("n", .int 9)]], none⟩]

theorem twoCalls_chain : ScanChain {} aboveThree none twoCalls := by
  have hwf : (fourRecords.run betweenPages).store.WellFormed :=
    Moment.run_wellFormed fourRecords_wellFormed betweenPages
  refine .next ?_ rfl (.last ?_ rfl)
  · exact (ScanLimits.scan_eq_ok_iff fourRecords_wellFormed 0 _ _ (some 1) none _).mpr
      ⟨1, _, rfl, rfl, rfl, rfl⟩
  · exact (ScanLimits.scan_eq_ok_iff hwf 0 _ none none (some (digestOfByte 2)) _).mpr
      ⟨100, _, rfl, rfl, rfl, rfl⟩

theorem complete_under_writes_twoCalls :
    (twoCalls.flatMap (·.digests)).Pairwise (· < ·) ∧
      (twoCalls.flatMap (·.digests)).count (digestOfByte 4) = 1 := by
  have htime : fourRecords.LeadsThrough (twoCalls.map (·.moment)) :=
    ⟨⟨[], rfl⟩, ⟨betweenPages, rfl⟩, trivial⟩
  obtain ⟨hasc, -, hfind⟩ := complete_under_writes fourRecords_wellFormed htime twoCalls_chain
  refine ⟨hasc, hfind (digestOfByte 4) ?_⟩
  have hselects : ∀ c ∈ twoCalls, ∃ rs, c.moment.store.space? "test" = some rs ∧
      (digestOfByte 4, ⟨some "demo", none, [("m", .bool true), ("n", .int 7)], 1, none⟩) ∈ rs := by
    refine List.forall_mem_cons.mpr ⟨?_, List.forall_mem_singleton.mpr ?_⟩
    · exact ⟨_, rfl, .tail _ (.tail _ (.tail _ (.head _)))⟩
    · exact ⟨_, rfl, .tail _ (.tail _ (.head _))⟩
  intro c hc
  exact ⟨_, hselects c hc, rfl, rfl, rfl⟩

end ScanChain
end RecordService
