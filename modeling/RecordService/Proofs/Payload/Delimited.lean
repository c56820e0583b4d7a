import RecordService.Proofs.Document.Delimited
import RecordService.Proofs.Payload.RoundTrip

/-!
# Payloads delimit themselves

A payload in MessagePack is neither read from a part of its bytes nor from more than these. What is
read of a part breaks off, and no value is made of a document that does.

* `Document.survey_whole`, `readFields_whole`, `Value.ofDocument_whole` and their like: what fits a
  shape is whole.
* `Value.ofDocument_cutShort`: a document that is cut short is malformed, if there was a value.
* `Codec.tree_append`, `Codec.tree_cut`: more bytes than those of a whole document, and less.
* `Codec.readValue_append`, `Codec.readValue_cut`: the same of values.
-/

namespace RecordService

variable {codec : Codec} {depth : Nat}

/-! ## What fits a shape is whole -/

namespace Document

variable {d : Document}

theorem asText_whole {s : String} (h : d.asText depth = .ok s) : d.Whole := by
  intro hd
  cases hd <;> cases h

mutual

/-- A document that is passed over is whole, whatever the walk asks of its leaves. -/
theorem survey_whole (bound : Option Nat) : ∀ d : Document, d.survey bound = .ok () → d.Whole
  | .list items, h => by
    obtain ⟨bound', -, h⟩ := bind_eq_ok_iff.mp h
    exact whole_list.mpr (surveyItems_whole bound' items h)
  | .map entries, h => by
    obtain ⟨bound', -, h⟩ := bind_eq_ok_iff.mp h
    exact whole_map.mpr (surveyEntries_whole bound' entries h)
  | .extension complete, h => by
    obtain ⟨_, -, h⟩ := bind_eq_ok_iff.mp h
    rintro ⟨⟩
    cases h
  | .broken _, h => nomatch h
  | .null, _ | .bool _, _ | .natural _ _, _ | .integer _ _, _ | .float _, _ | .text _, _
  | .rawText _, _ | .bytes _, _ | .reserved, _ | .unreadable, _ => nofun

theorem surveyItems_whole (bound : Option Nat) :
    ∀ items : List Document, surveyItems bound items = .ok () → ∀ d ∈ items, d.Whole
  | [], _ => List.forall_mem_nil _
  | d :: rest, h => by
    obtain ⟨_, hd, hrest⟩ := bind_eq_ok_iff.mp h
    exact List.forall_mem_cons.mpr ⟨survey_whole bound d hd, surveyItems_whole bound rest hrest⟩

theorem surveyEntries_whole (bound : Option Nat) :
    ∀ entries : List (Document × Document), surveyEntries bound entries = .ok () →
      ∀ e ∈ entries, e.1.Whole ∧ e.2.Whole
  | [], _ => List.forall_mem_nil _
  | (k, d) :: rest, h => by
    obtain ⟨_, hk, h⟩ := bind_eq_ok_iff.mp h
    obtain ⟨_, hd, hrest⟩ := bind_eq_ok_iff.mp h
    exact List.forall_mem_cons.mpr ⟨⟨survey_whole bound k hk, survey_whole bound d hd⟩,
      surveyEntries_whole bound rest hrest⟩

end

end Document

section

variable {σ : Type} {names : List String} {fit : Nat → Nat → Document → σ → Except Fault σ}
  {d : Document}

theorem fieldIndex_whole {i : Option Nat} (h : fieldIndex names depth d = .ok i) : d.Whole := by
  intro hd
  cases hd <;> cases h

theorem variantIndex_whole {i : Nat} (h : variantIndex codec names depth d = .ok i) :
    d.Whole := by
  intro hd
  cases hd with
  | broken cut => cases cut <;> cases h
  | _ => cases h

/-- What is one of some names, bare or with null under it, is whole. -/
theorem bareVariant_whole {i : Nat} (h : bareVariant codec names depth d = .ok i) : d.Whole := by
  have hentry {k v : Document} (hk : k.Whole) (hv : v = .null) :
      ∀ e ∈ [(k, v)], e.1.Whole ∧ e.2.Whole :=
    List.forall_mem_singleton.mpr ⟨hk, hv ▸ nofun⟩
  unfold bareVariant at h
  split at h
  · obtain ⟨_, hk, h⟩ := bind_eq_ok_iff.mp h
    split at h <;> cases h
    exact Document.whole_map.mpr (hentry (variantIndex_whole hk) rfl)
  · cases h
  · exact variantIndex_whole h
  · exact nofun
  · obtain ⟨_, hk, h⟩ := bind_eq_ok_iff.mp h
    split at h
    · split at h <;> cases h
      rename_i hrest
      rw [List.isEmpty_iff.mp hrest]
      exact Document.whole_map.mpr (hentry (variantIndex_whole hk) rfl)
    · cases h
  · cases h

theorem readEntries_whole (hfit : ∀ i d s s', fit i depth d s = .ok s' → d.Whole)
    {entries : List (Document × Document)} {seen : List Nat} {s s' : σ}
    (h : readEntries codec names fit depth seen s entries = .ok s') :
    ∀ e ∈ entries, e.1.Whole ∧ e.2.Whole := by
  induction entries generalizing seen s with
  | nil => exact List.forall_mem_nil _
  | cons e rest ih =>
    obtain ⟨k, d⟩ := e
    obtain ⟨place, hk, h⟩ := bind_eq_ok_iff.mp h
    cases place with
    | none =>
      obtain ⟨_, hd, h⟩ := bind_eq_ok_iff.mp h
      exact List.forall_mem_cons.mpr
        ⟨⟨fieldIndex_whole hk, Document.survey_whole _ d hd⟩, ih h⟩
    | some i =>
      obtain ⟨-, h⟩ := error_or_eq_ok_iff.mp h
      obtain ⟨_, hd, h⟩ := bind_eq_ok_iff.mp h
      exact List.forall_mem_cons.mpr ⟨⟨fieldIndex_whole hk, hfit _ _ _ _ hd⟩, ih h⟩

theorem readItems_whole (hfit : ∀ i d s s', fit i depth d s = .ok s' → d.Whole)
    {count optional i : Nat} {items : List Document} {s s' : σ}
    (h : readItems codec count optional fit depth i s items = .ok s') :
    ∀ d ∈ items, d.Whole := by
  induction items generalizing i s with
  | nil => exact List.forall_mem_nil _
  | cons d rest ih =>
    obtain ⟨-, h⟩ := error_or_eq_ok_iff.mp h
    obtain ⟨_, hd, h⟩ := bind_eq_ok_iff.mp h
    exact List.forall_mem_cons.mpr ⟨hfit _ _ _ _ hd, ih h⟩

/-- A structure is whole if its fields are. -/
theorem readFields_whole (hfit : ∀ i depth d s s', fit i depth d s = .ok s' → d.Whole)
    {optional : Nat} {start s' : σ}
    (h : readFields codec names optional fit start depth d = .ok s') : d.Whole := by
  unfold readFields at h
  split at h
  · obtain ⟨-, h⟩ := error_or_eq_ok_iff.mp h
    exact Document.whole_map.mpr (readEntries_whole (fun i => hfit i _) h)
  · obtain ⟨items, hitems, h⟩ := bind_eq_ok_iff.mp h
    have hwhole := readItems_whole (fun i => hfit i _) h
    cases d with
    | list items' =>
      obtain ⟨-, hitems⟩ := error_or_eq_ok_iff.mp hitems
      cases hitems
      exact Document.whole_list.mpr hwhole
    | bytes b => exact nofun
    | _ => cases hitems

end

/-! ## Values -/

namespace Value

mutual

/-- A document with a value is whole. -/
theorem ofDocument_whole (depth : Nat) :
    ∀ (d : Document) {v : Value}, ofDocument depth d = .ok v → d.Whole
  | .list items, _, h => by
    cases depth with
    | zero => cases h
    | succ depth =>
      obtain ⟨_, h, -⟩ := map_eq_ok_iff.mp h
      exact Document.whole_list.mpr (ofItems_whole depth items h)
  | .map entries, _, h => by
    cases depth with
    | zero => cases h
    | succ depth =>
      obtain ⟨_, h, -⟩ := bind_eq_ok_iff.mp h
      exact Document.whole_map.mpr (ofFields_whole depth entries h)
  | .extension _, _, h | .broken _, _, h => nomatch h
  | .null, _, _ | .bool _, _, _ | .natural _ _, _, _ | .integer _ _, _, _ | .float _, _, _
  | .text _, _, _ | .rawText _, _, _ | .bytes _, _, _ | .reserved, _, _
  | .unreadable, _, _ => nofun

theorem ofItems_whole (depth : Nat) :
    ∀ (items : List Document) {found ws : List Value}, ofItems depth found items = .ok ws →
      ∀ d ∈ items, d.Whole
  | [], _, _, _ => List.forall_mem_nil _
  | d :: rest, _, _, h => by
    obtain ⟨_, hd, h⟩ := bind_eq_ok_iff.mp h
    exact List.forall_mem_cons.mpr ⟨ofDocument_whole depth d hd, ofItems_whole depth rest h⟩

theorem ofFields_whole (depth : Nat) :
    ∀ (entries : List (Document × Document)) {found ws : List (String × Value)},
      ofFields depth found entries = .ok ws → ∀ e ∈ entries, e.1.Whole ∧ e.2.Whole
  | [], _, _, _ => List.forall_mem_nil _
  | (k, d) :: rest, _, _, h => by
    obtain ⟨_, hk, h⟩ := bind_eq_ok_iff.mp h
    obtain ⟨_, hd, h⟩ := bind_eq_ok_iff.mp h
    exact List.forall_mem_cons.mpr ⟨⟨Document.asText_whole hk, ofDocument_whole depth d hd⟩,
      ofFields_whole depth rest h⟩

end

/-! ### Cut short -/

theorem asText_cutShort {k k' : Document} {s : String} (h : k.asText depth = .ok s)
    (hk : k.CutShort k') : k'.asText depth = .error .malformed := by
  cases hk with
  | broken => rfl
  | _ => cases h

/-- The fault of an item is that of the list, if all items before it have values. -/
theorem ofItems_append {front : List Document} {d d' : Document} {back more : List Document}
    {found ws : List Value} {fault : Fault}
    (h : ofItems depth found (front ++ d :: back) = .ok ws)
    (hd : ∀ v, ofDocument depth d = .ok v → ofDocument depth d' = .error fault) :
    ofItems depth found (front ++ d' :: more) = .error fault := by
  induction front generalizing found with
  | nil =>
    obtain ⟨v, hv, -⟩ := bind_eq_ok_iff.mp h
    rw [List.nil_append, ofItems, hd v hv]
    rfl
  | cons e front ih =>
    obtain ⟨v, hv, h⟩ := bind_eq_ok_iff.mp h
    rw [List.cons_append, ofItems, hv]
    exact ih h

/-- The fault of an entry is that of the map, if all entries before it have values. -/
theorem ofFields_append {front : List (Document × Document)} {e e' : Document × Document}
    {back more : List (Document × Document)} {found ws : List (String × Value)} {fault : Fault}
    (h : ofFields depth found (front ++ e :: back) = .ok ws)
    (he : ∀ found ws, ofFields depth found (e :: back) = .ok ws →
      ofFields depth found (e' :: more) = .error fault) :
    ofFields depth found (front ++ e' :: more) = .error fault := by
  induction front generalizing found with
  | nil => exact he found ws h
  | cons e front ih =>
    obtain ⟨k, d⟩ := e
    obtain ⟨key, hkey, h⟩ := bind_eq_ok_iff.mp h
    obtain ⟨v, hv, h⟩ := bind_eq_ok_iff.mp h
    rw [List.cons_append, ofFields, hkey]
    show (ofDocument depth d).bind _ = _
    rw [hv]
    exact ih h

/-- A document that is cut short is malformed, if there was a value. -/
theorem ofDocument_cutShort {d d' : Document} {v : Value} (h : ofDocument depth d = .ok v)
    (hd : d.CutShort d') : ofDocument depth d' = .error .malformed := by
  induction hd generalizing depth v with
  | broken => rfl
  | extension => cases h
  | item front back _ ih =>
    cases depth with
    | zero => cases h
    | succ depth =>
      obtain ⟨_, h, -⟩ := map_eq_ok_iff.mp h
      rw [ofDocument, ofItems_append h fun _ => ih]
      rfl
  | key v v' front back more hk ih =>
    cases depth with
    | zero => cases h
    | succ depth =>
      obtain ⟨_, h, -⟩ := bind_eq_ok_iff.mp h
      rw [ofDocument, ofFields_append h fun found ws h => ?_]
      · rfl
      · obtain ⟨key, hkey, -⟩ := bind_eq_ok_iff.mp h
        rw [ofFields, asText_cutShort hkey hk]
        rfl
  | value k front back more hv ih =>
    cases depth with
    | zero => cases h
    | succ depth =>
      obtain ⟨_, h, -⟩ := bind_eq_ok_iff.mp h
      rw [ofDocument, ofFields_append h fun found ws h => ?_]
      · rfl
      · obtain ⟨key, hkey, h⟩ := bind_eq_ok_iff.mp h
        obtain ⟨_, hv, -⟩ := bind_eq_ok_iff.mp h
        rw [ofFields, hkey]
        show (ofDocument depth _).bind _ = _
        rw [ih hv]
        rfl

end Value

/-! ## Bytes -/

namespace Codec

variable {b p q : Bytes} {d : Document}

/-- A whole document that no bytes are left behind was read to its end. -/
theorem read_of_tree (h : tree .messagePack b = (d, [])) (hd : d.Whole) :
    MessagePack.read b = ⟨d, some []⟩ := by
  cases hread : MessagePack.read b with
  | mk d' rest =>
    simp only [tree, hread] at h
    cases rest with
    | none =>
      cases h
      exact absurd (MessagePack.breaksOff_of_run hread) hd
    | some rest =>
      cases h
      rfl

theorem tree_append (h : tree .messagePack b = (d, [])) (hd : d.Whole) (x : Bytes) :
    tree .messagePack (b ++ x) = (d, x) := by
  simp only [tree, MessagePack.read_append (read_of_tree h hd)]
  rfl

theorem tree_cut (h : tree .messagePack (p ++ q) = (d, [])) (hd : d.Whole) (hq : q ≠ []) :
    ∃ d', tree .messagePack p = (d', []) ∧ d.CutShort d' := by
  obtain ⟨d', hread, hcut⟩ := MessagePack.read_cut (read_of_tree h hd) hq
  exact ⟨d', by simp only [tree, hread]; rfl, hcut⟩

theorem readValue_append {v : Value} (h : readValue .messagePack b = .ok v) {x : Bytes}
    (hx : x ≠ []) :
    readValue .messagePack (b ++ x) = .error (trailing .messagePack x.length) := by
  obtain ⟨d, htree, hv⟩ := tree_of_read h
  simp only [readValue, read, tree_append htree (Value.ofDocument_whole _ d hv), hv, if_neg hx]

theorem readValue_cut {v : Value} (h : readValue .messagePack (p ++ q) = .ok v) (hq : q ≠ []) :
    readValue .messagePack p = .error (.ofFault .messagePack .malformed) := by
  obtain ⟨d, htree, hv⟩ := tree_of_read h
  obtain ⟨d', htree', hcut⟩ := tree_cut htree (Value.ofDocument_whole _ d hv) hq
  simp only [readValue, read, htree', Value.ofDocument_cutShort hv hcut]

end Codec

end RecordService
