import Mathlib.Data.List.Forall2
import RecordService.Proofs.Except
import RecordService.Proofs.Ordered
import RecordService.Proofs.Text.Base64
import RecordService.Proofs.Value

/-!
# Values and their documents

A value is written as a document and read back from it. What can be lost on the way is decided
here, for both formats at once; what becomes of the document itself is another matter.

* `Value.Rereads`: what is read from the document of a value.
* `Value.rereads_leaf`, `rereads_list`, `rereads_map`: the rules, one for each kind of value.
* `Value.rereads_told`: a value that nests no deeper than allowed and spells no tagged value is
  read back.
* `Value.Rereads.untagged_and_nesting_le`: and no other is.
* `Value.ofDocument_relayable`: whatever the document, the maps in what is read are in order, and
  none spells a tagged value.
-/

namespace RecordService

/-! ## Doubles by name -/

namespace Double

theorem bits_toNat (x : Double) :
    x.bits.toNat = (if x.isNegative then 2 ^ 63 else 0) + x.magnitude := by
  have hlt : x.bits.toNat < 2 ^ 64 := x.bits.toNat_lt
  unfold isNegative magnitude
  by_cases h : x.bits.toNat / 2 ^ 63 = 1
  · rw [decide_eq_true h, if_pos rfl]
    omega
  · rw [decide_eq_false h, if_neg Bool.false_ne_true]
    omega

theorem eq_of_toNat_eq {x y : Double} (h : x.bits.toNat = y.bits.toNat) : x = y := by
  cases x
  cases y
  exact congrArg mk (UInt64.toNat_inj.mp h)

theorem specialName?_eq_none_iff {x : Double} : x.specialName? = none ↔ ¬x.IsSpecial := by
  unfold specialName? IsSpecial
  cases x.isNaN <;> cases x.isInfinite <;> cases x.isZero <;> cases x.isNegative <;> simp

theorem isSpecial_of_specialName? {x : Double} {name : String} (h : x.specialName? = some name) :
    x.IsSpecial :=
  Decidable.byContradiction fun hx => by
    rw [specialName?_eq_none_iff.mpr hx] at h
    cases h

/-- A special double is found by its name; of the NaNs only one is. -/
theorem ofName?_specialName? {x : Double} {name : String} (h : x.specialName? = some name) :
    ofName? name = some (if x.isNaN then nan else x) := by
  have hbits := x.bits_toNat
  unfold specialName? at h
  split at h
  · rename_i hnan
    cases h
    rw [if_pos hnan]
    rfl
  · rename_i hnan
    rw [if_neg hnan]
    split at h
    · rename_i hinf
      have hmag : x.magnitude = infinityMagnitude := of_decide_eq_true hinf
      rw [hmag] at hbits
      cases hneg : x.isNegative with
      | false =>
        rw [hneg] at h hbits
        cases h
        rw [eq_of_toNat_eq (y := infinity) hbits]
        decide
      | true =>
        rw [hneg] at h hbits
        cases h
        rw [eq_of_toNat_eq (y := negInfinity) hbits]
        decide
    · split at h
      · rename_i hzero
        obtain ⟨hz, hneg⟩ := Bool.and_eq_true_iff.mp hzero
        have hmag : x.magnitude = 0 := of_decide_eq_true hz
        rw [hmag, hneg] at hbits
        cases h
        rw [eq_of_toNat_eq (y := negZero) hbits]
        decide
      · cases h

end Double

namespace Value

variable {codec : Codec} {n : Nat} {v w : Value}

/-- With `n` more containers allowed, the one value is read from the document of the other. -/
def Rereads (codec : Codec) (n : Nat) (v w : Value) : Prop :=
  ofDocument n (v.toDocument codec) = .ok w

theorem itemDocuments_eq_map (items : List Value) :
    itemDocuments codec items = items.map (toDocument codec) := by
  induction items with
  | nil => rfl
  | cons v rest ih => rw [itemDocuments, ih, List.map_cons]

theorem entryDocuments_eq_map (entries : List (String × Value)) :
    entryDocuments codec entries = entries.map fun e => (.text e.1, e.2.toDocument codec) := by
  induction entries with
  | nil => rfl
  | cons e rest ih => rw [entryDocuments, ih, List.map_cons]

/-! ## Leaves -/

theorem ofDocument_ofInt (m : Int64) : ofDocument n (.ofInt m.toInt) = .ok (int m) := by
  have hlt : m.toInt < 2 ^ 63 := Int64.toInt_lt m
  unfold Document.ofInt
  split
  · rename_i hpos
    have hnat : m.toInt.toNat < 2 ^ 63 := by omega
    simp only [ofDocument, if_pos hnat]
    rw [← Int64.ofInt_eq_ofNat, Int.toNat_of_nonneg hpos, Int64.ofInt_toInt]
  · simp only [ofDocument, Int64.ofInt_toInt]

/-- A map with a tag and a text takes one level, and is read as the value that they make. -/
theorem ofDocument_tagged_eq_ok_iff {tag body : String}
    (h : ofEntries [(tag, .string body)] = .ok v) :
    ofDocument n (tagged tag body) = .ok w ↔ 1 ≤ n ∧ w = v := by
  cases n with
  | zero => exact iff_of_false nofun fun h => absurd h.1 (Nat.not_succ_le_zero 0)
  | succ n =>
    show ofEntries [(tag, .string body)] = .ok w ↔ _
    rw [h]
    simp [eq_comm]

theorem rereads_float (x : Double) :
    Rereads codec n (float x) w ↔
      (float x).nesting codec ≤ n ∧ w = (float x).told codec := by
  cases codec with
  | messagePack => simp [Rereads, toDocument, ofDocument, nesting, told, eq_comm]
  | json =>
    cases hx : x.specialName? with
    | none =>
      have hspecial := Double.specialName?_eq_none_iff.mp hx
      have hnan : ¬x.isNaN := fun h => hspecial (.inl h)
      simp [Rereads, toDocument, hx, ofDocument, nesting, hspecial, told, mergeNaN, hnan, eq_comm]
    | some name =>
      have hspecial := Double.isSpecial_of_specialName? hx
      have hread : ofEntries [(doubleTag, string name)] = .ok (mergeNaN (float x)) := by
        have htag : doubleTag ≠ bytesTag := by decide
        simp [ofEntries, htag, Double.ofName?_specialName? hx, mergeNaN]
      simp only [Rereads, toDocument, hx, ofDocument_tagged_eq_ok_iff hread, nesting, told,
        hspecial, and_self, ↓reduceIte]

theorem rereads_blob (b : Bytes) :
    Rereads codec n (blob b) w ↔ (blob b).nesting codec ≤ n ∧ w = (blob b).told codec := by
  cases codec with
  | messagePack => simp [Rereads, toDocument, ofDocument, nesting, told, eq_comm]
  | json =>
    have hread : ofEntries [(bytesTag, string (Base64.encode .standard true b))] =
        .ok (blob b) := by
      simp [ofEntries, Base64.decode?_encode_filled Base64.Alphabet.standard_faithful]
    simp only [Rereads, toDocument, ofDocument_tagged_eq_ok_iff hread, nesting, told, mergeNaN,
      ↓reduceIte]

theorem rereads_geoJson (s : String) :
    Rereads codec n (geoJson s) w ↔
      (geoJson s).nesting codec ≤ n ∧ w = (geoJson s).told codec := by
  have hread : ofEntries [(geoJsonTag, string s)] = .ok (geoJson s) := by
    have hbytes : geoJsonTag ≠ bytesTag := by decide
    have hdouble : geoJsonTag ≠ doubleTag := by decide
    simp [ofEntries, hbytes, hdouble]
  have htold : (geoJson s).told codec = geoJson s := by cases codec <;> rfl
  simp only [Rereads, toDocument, ofDocument_tagged_eq_ok_iff hread, nesting, htold]

/-- A leaf is read back wherever there is room for what it is written as. -/
theorem rereads_leaf (hv : v.IsLeaf) :
    Rereads codec n v w ↔ v.nesting codec ≤ n ∧ w = v.told codec := by
  cases v with
  | float x => exact rereads_float x
  | blob b => exact rereads_blob b
  | geoJson s => exact rereads_geoJson s
  | int m =>
    have htold : (int m).told codec = int m := by cases codec <;> rfl
    simp [Rereads, toDocument, ofDocument_ofInt, nesting, htold, eq_comm]
  | null => cases codec <;> simp [Rereads, toDocument, ofDocument, nesting, told, mergeNaN, eq_comm]
  | bool => cases codec <;> simp [Rereads, toDocument, ofDocument, nesting, told, mergeNaN, eq_comm]
  | string =>
    cases codec <;> simp [Rereads, toDocument, ofDocument, nesting, told, mergeNaN, eq_comm]
  | list => exact hv.elim
  | map => exact hv.elim

/-! ## Lists and maps -/

theorem ofItems_eq_ok_iff {items found : List Value} {m : Nat} {ws : List Value} :
    ofItems m found (itemDocuments codec items) = .ok ws ↔
      ∃ read, List.Forall₂ (Rereads codec m) items read ∧ ws = found.reverse ++ read := by
  induction items generalizing found with
  | nil => simp [itemDocuments, ofItems, eq_comm]
  | cons v rest ih =>
    rw [itemDocuments, ofItems]
    simp only [bind_eq_ok_iff, ih, List.reverse_cons, List.append_assoc, List.singleton_append]
    constructor
    · rintro ⟨w, hv, read, hread, rfl⟩
      exact ⟨w :: read, .cons hv hread, rfl⟩
    · rintro ⟨_, hread, rfl⟩
      cases hread with
      | cons hv hread => exact ⟨_, hv, _, hread, rfl⟩

/-- An entry is read under its own key. -/
def EntryRereads (codec : Codec) (n : Nat) (e f : String × Value) : Prop :=
  e.1 = f.1 ∧ Rereads codec n e.2 f.2

theorem ofFields_eq_ok_iff {entries found : List (String × Value)} {m : Nat}
    {ws : List (String × Value)} :
    ofFields m found (entryDocuments codec entries) = .ok ws ↔
      ∃ read, List.Forall₂ (EntryRereads codec m) entries read ∧
        ws = read.foldl (fun m e => Ordered.insert e.1 e.2 m) found := by
  induction entries generalizing found with
  | nil => simp [entryDocuments, ofFields, eq_comm]
  | cons e rest ih =>
    obtain ⟨k, v⟩ := e
    rw [entryDocuments, ofFields]
    simp only [Document.asText, bind_eq_ok_iff, ih]
    constructor
    · rintro ⟨_, hk, w, hv, read, hread, rfl⟩
      cases hk
      exact ⟨(k, w) :: read, .cons ⟨rfl, hv⟩ hread, rfl⟩
    · rintro ⟨_, hread, rfl⟩
      cases hread with
      | @cons _ f _ _ h hread =>
        obtain ⟨k', w⟩ := f
        obtain ⟨rfl, hv⟩ := h
        exact ⟨k, rfl, w, hv, _, hread, rfl⟩

/-- A list is read item by item, one level down. -/
theorem rereads_list {items : List Value} :
    Rereads codec (n + 1) (list items) w ↔
      ∃ ws, List.Forall₂ (Rereads codec n) items ws ∧ w = list ws := by
  simp only [Rereads, toDocument, ofDocument, map_eq_ok_iff, ofItems_eq_ok_iff]
  constructor
  · rintro ⟨_, ⟨_, hread, rfl⟩, rfl⟩
    exact ⟨_, hread, rfl⟩
  · rintro ⟨ws, hread, rfl⟩
    exact ⟨ws, ⟨ws, hread, rfl⟩, rfl⟩

theorem sorted_of_entryRereads {entries ws : List (String × Value)}
    (h : List.Forall₂ (EntryRereads codec n) entries ws) (hs : Ordered.Sorted entries) :
    Ordered.Sorted ws := by
  have hkeys : entries.map (·.1) = ws.map (·.1) := by
    induction h with
    | nil => rfl
    | cons he _ ih => rw [List.map_cons, List.map_cons, he.1, ih (Ordered.sorted_cons.mp hs).2]
  have hpair := List.pairwise_map.mpr hs
  rw [hkeys] at hpair
  exact List.pairwise_map.mp hpair

/-- A map is read entry by entry, one level down, and what was read may be a tagged value. -/
theorem rereads_map {entries : List (String × Value)} (hs : Ordered.Sorted entries) :
    Rereads codec (n + 1) (map entries) w ↔
      ∃ ws, List.Forall₂ (EntryRereads codec n) entries ws ∧ ofEntries ws = .ok w := by
  have hfields : ∀ ws, ofFields n [] (entryDocuments codec entries) = .ok ws ↔
      List.Forall₂ (EntryRereads codec n) entries ws := by
    intro ws
    rw [ofFields_eq_ok_iff]
    constructor
    · rintro ⟨read, hread, rfl⟩
      have hsame : read.foldl (fun m e => Ordered.insert e.1 e.2 m) [] = read :=
        Ordered.ofEntries_of_sorted (sorted_of_entryRereads hread hs)
      rwa [hsame]
    · intro hread
      exact ⟨ws, hread, (Ordered.ofEntries_of_sorted (sorted_of_entryRereads hread hs)).symm⟩
  simp only [Rereads, toDocument, ofDocument, bind_eq_ok_iff, hfields]

theorem not_rereads_zero (hv : ¬v.IsLeaf) : ¬Rereads codec 0 v w := by
  cases v with
  | list => simp [Rereads, toDocument, ofDocument]
  | map => simp [Rereads, toDocument, ofDocument]
  | _ => exact absurd trivial hv

/-- Entries that spell no tagged value are read as the map of them, and all others as no map. -/
theorem ofEntries_eq_map_iff {ws entries : List (String × Value)} :
    ofEntries ws = .ok (map entries) ↔ ws = entries ∧ ¬(map ws).Lookalike := by
  unfold ofEntries
  split
  · rename_i tag body
    have htagged : (map [(tag, string body)]).Lookalike ↔ tag ∈ tags :=
      ⟨fun ⟨_, ht, _, h⟩ => by cases h; exact ht, fun h => ⟨tag, h, body, rfl⟩⟩
    rw [htagged]
    by_cases hbytes : tag = bytesTag
    · refine iff_of_false ?_ fun h => h.2 (by simp [tags, hbytes])
      rw [if_pos hbytes]
      split <;> nofun
    by_cases hdouble : tag = doubleTag
    · refine iff_of_false ?_ fun h => h.2 (by simp [tags, hdouble])
      rw [if_neg hbytes, if_pos hdouble]
      split <;> nofun
    by_cases hgeo : tag = geoJsonTag
    · refine iff_of_false ?_ fun h => h.2 (by simp [tags, hgeo])
      rw [if_neg hbytes, if_neg hdouble, if_pos hgeo]
      nofun
    · rw [if_neg hbytes, if_neg hdouble, if_neg hgeo]
      simp [tags, hbytes, hdouble, hgeo]
  · rename_i hne
    have hno : ¬(map ws).Lookalike := fun ⟨tag, _, body, h⟩ => hne tag body (map.inj h)
    simp [hno]

/-! ## What is read back -/

theorem told_eq_string_iff {body : String} : v.told codec = string body ↔ v = string body := by
  cases codec with
  | messagePack => exact Iff.rfl
  | json => cases v <;> simp [told, mergeNaN]

theorem lookalike_map_told_iff {entries : List (String × Value)} :
    (map (entries.map fun e => (e.1, e.2.told codec))).Lookalike ↔ (map entries).Lookalike := by
  have hone : ∀ tag body, entries.map (fun e => (e.1, e.2.told codec)) = [(tag, string body)] ↔
      entries = [(tag, string body)] := by
    intro tag body
    match entries with
    | [] => simp
    | [(k, v)] => simp [told_eq_string_iff]
    | _ :: _ :: _ => simp
  simp only [Lookalike, map.injEq, hone]

/-- A value that nests no deeper than allowed and spells no tagged value is read back. -/
theorem rereads_told (hwf : v.WellFormed) (hu : v.Untagged) (hn : v.nesting codec ≤ n) :
    Rereads codec n v (v.told codec) := by
  induction v using induct generalizing n with
  | leaf v hv => exact (rereads_leaf hv).mpr ⟨hn, rfl⟩
  | list items ih =>
    cases n with
    | zero => simp [nesting] at hn
    | succ n =>
      have hitems := (everywhere_list.mp hu).2
      refine rereads_list.mpr ⟨items.map (told codec), ?_, told_list codec items⟩
      rw [List.forall₂_map_right_iff, List.forall₂_same]
      exact fun v hv =>
        ih v hv (wellFormed_list.mp hwf v hv) (hitems v hv) (nesting_list_le.mp hn v hv)
  | map entries ih =>
    cases n with
    | zero => simp [nesting] at hn
    | succ n =>
      obtain ⟨hself, hentries⟩ := everywhere_map.mp hu
      obtain ⟨hsorted, hwf⟩ := wellFormed_map.mp hwf
      refine (rereads_map hsorted).mpr
        ⟨entries.map fun e => (e.1, e.2.told codec), ?_, ?_⟩
      · rw [List.forall₂_map_right_iff, List.forall₂_same]
        exact fun e he =>
          ⟨rfl, ih e he (hwf e he) (hentries e he) (nesting_map_le.mp hn e he)⟩
      · rw [told_map]
        exact ofEntries_eq_map_iff.mpr ⟨rfl, fun h => hself (lookalike_map_told_iff.mp h)⟩

theorem exists_of_forall₂ {α β γ : Type} {R : α → β → Prop} {f : α → γ} {g : β → γ}
    {as : List α} {bs : List β} (h : List.Forall₂ R as bs) (hmap : bs.map g = as.map f) :
    ∀ a ∈ as, ∃ b, R a b ∧ g b = f a := by
  induction h with
  | nil => exact fun _ h => nomatch h
  | cons hab _ ih =>
    obtain ⟨hhead, htail⟩ := List.cons.inj hmap
    exact List.forall_mem_cons.mpr ⟨⟨_, hab, hhead⟩, ih htail⟩

/-- What is read as itself, up to its NaNs, spells no tagged value and nests no deeper than
allowed. -/
theorem Rereads.untagged_and_nesting_le (hwf : v.WellFormed) (h : Rereads codec n v w)
    (hw : w.mergeNaN = v.mergeNaN) : v.Untagged ∧ v.nesting codec ≤ n := by
  induction v using induct generalizing n w with
  | leaf v hv =>
    refine ⟨(everywhere_leaf hv).mpr ?_, ((rereads_leaf hv).mp h).1⟩
    rintro ⟨tag, -, body, rfl⟩
    exact hv
  | list items ih =>
    cases n with
    | zero => exact absurd h (not_rereads_zero id)
    | succ n =>
      obtain ⟨ws, hread, rfl⟩ := rereads_list.mp h
      rw [mergeNaN_list, mergeNaN_list] at hw
      have hitems : ∀ v ∈ items, v.Untagged ∧ v.nesting codec ≤ n := by
        intro v hv
        obtain ⟨w, hvw, hmerge⟩ := exists_of_forall₂ hread (list.inj hw) v hv
        exact ih v hv (wellFormed_list.mp hwf v hv) hvw hmerge
      refine ⟨everywhere_list.mpr ⟨?_, fun v hv => (hitems v hv).1⟩,
        nesting_list_le.mpr fun v hv => (hitems v hv).2⟩
      rintro ⟨tag, -, body, heq⟩
      cases heq
  | map entries ih =>
    cases n with
    | zero => exact absurd h (not_rereads_zero id)
    | succ n =>
      obtain ⟨hsorted, hwf⟩ := wellFormed_map.mp hwf
      obtain ⟨ws, hread, hmap⟩ := (rereads_map hsorted).mp h
      rw [mergeNaN_map] at hw
      obtain ⟨es, rfl⟩ : ∃ es, w = map es := by
        cases w with
        | map es => exact ⟨es, rfl⟩
        | _ => simp [mergeNaN] at hw
      rw [mergeNaN_map] at hw
      obtain ⟨rfl, hself⟩ := ofEntries_eq_map_iff.mp hmap
      -- Merging NaNs turns no map into a tagged value, nor back.
      have hlookalike : ∀ es, (map (es.map fun e => (e.1, e.2.mergeNaN))).Lookalike ↔
          (map es).Lookalike := fun es => @lookalike_map_told_iff .json es
      rw [← hlookalike, hw, hlookalike] at hself
      have hentries : ∀ e ∈ entries, e.2.Untagged ∧ e.2.nesting codec ≤ n := by
        intro e he
        obtain ⟨f, hef, hmerge⟩ := exists_of_forall₂ hread (map.inj hw) e he
        exact ih e he (hwf e he) hef.2 (Prod.mk.inj hmerge).2
      exact ⟨everywhere_map.mpr ⟨hself, fun e he => (hentries e he).1⟩,
        nesting_map_le.mpr fun e he => (hentries e he).2⟩

/-! ## What is read can be told again -/

/-- Entries are read as a leaf, or as the map of them if they spell no tagged value. -/
theorem ofEntries_relayable {ws : List (String × Value)} (hsorted : Ordered.Sorted ws)
    (hvalues : ∀ e ∈ ws, e.2.Relayable) (hw : ofEntries ws = .ok w) : w.Relayable := by
  have hleaf : ¬w.IsLeaf → w = map ws := by
    intro hnleaf
    unfold ofEntries at hw
    split at hw
    · repeat' split at hw
      all_goals cases hw
      · exact absurd trivial hnleaf
      · exact absurd trivial hnleaf
      · exact absurd trivial hnleaf
      · rfl
    · cases hw
      rfl
  by_cases hw' : w.IsLeaf
  · exact relayable_leaf hw'
  · obtain rfl := hleaf hw'
    exact relayable_map.mpr ⟨⟨hsorted, (ofEntries_eq_map_iff.mp hw).2⟩, hvalues⟩

mutual

/-- The maps in what is read from a document are in key order, whatever the order of the entries
and the repetitions of their keys in the document, and none of them spells a tagged value. -/
theorem ofDocument_relayable (depth : Nat) :
    ∀ (d : Document) {v : Value}, ofDocument depth d = .ok v → v.Relayable
  | .null, _, h => by cases h; exact relayable_leaf trivial
  | .bool _, _, h => by cases h; exact relayable_leaf trivial
  | .natural _ n, _, h => by
    simp only [ofDocument] at h
    split at h <;> cases h
    exact relayable_leaf trivial
  | .integer _ _, _, h => by cases h; exact relayable_leaf trivial
  | .float _, _, h => by cases h; exact relayable_leaf trivial
  | .text _, _, h => by cases h; exact relayable_leaf trivial
  | .rawText _, _, h => by cases h; exact relayable_leaf trivial
  | .bytes _, _, h => by cases h; exact relayable_leaf trivial
  | .list items, _, h => by
    cases depth with
    | zero => cases h
    | succ depth =>
      obtain ⟨ws, hws, rfl⟩ := map_eq_ok_iff.mp h
      exact relayable_list.mpr (ofItems_relayable depth items (List.forall_mem_nil _) hws)
  | .map entries, _, h => by
    cases depth with
    | zero => cases h
    | succ depth =>
      obtain ⟨ws, hws, hw⟩ := bind_eq_ok_iff.mp h
      obtain ⟨hsorted, hvalues⟩ :=
        ofFields_relayable depth entries List.Pairwise.nil (List.forall_mem_nil _) hws
      exact ofEntries_relayable hsorted hvalues hw
  | .extension _, _, h => nomatch h
  | .reserved, _, h => nomatch h
  | .unreadable, _, h => nomatch h
  | .broken _, _, h => nomatch h

theorem ofItems_relayable (depth : Nat) :
    ∀ (items : List Document) {found ws : List Value}, (∀ v ∈ found, v.Relayable) →
      ofItems depth found items = .ok ws → ∀ v ∈ ws, v.Relayable
  | [], _, _, hfound, h => by
    cases h
    simpa using hfound
  | d :: rest, _, _, hfound, h => by
    obtain ⟨v, hv, h⟩ := bind_eq_ok_iff.mp h
    have hd := ofDocument_relayable depth d hv
    exact ofItems_relayable depth rest (List.forall_mem_cons.mpr ⟨hd, hfound⟩) h

theorem ofFields_relayable (depth : Nat) :
    ∀ (entries : List (Document × Document)) {found ws : List (String × Value)},
      Ordered.Sorted found → (∀ e ∈ found, e.2.Relayable) → ofFields depth found entries = .ok ws →
        Ordered.Sorted ws ∧ ∀ e ∈ ws, e.2.Relayable
  | [], _, _, hsorted, hfound, h => by
    cases h
    exact ⟨hsorted, hfound⟩
  | (_, d) :: rest, _, _, hsorted, hfound, h => by
    obtain ⟨key, -, h⟩ := bind_eq_ok_iff.mp h
    obtain ⟨v, hv, h⟩ := bind_eq_ok_iff.mp h
    have hd := ofDocument_relayable depth d hv
    refine ofFields_relayable depth rest (hsorted.insert key v) (fun e he => ?_) h
    rcases Ordered.mem_insert he with rfl | he
    · exact hd
    · exact hfound e he

end

end Value
end RecordService
