import RecordService.Payload.Wire
import RecordService.Proofs.Document.Json.Tree
import RecordService.Proofs.Document.MessagePack
import RecordService.Proofs.Payload.Value

/-!
# Values and their bytes

A value goes through a document to its bytes and back. The document is read back in full, so what
is lost is what its shape does not tell: a map that spells a tagged value, and all that nests
deeper than the reader follows.

* `Codec.tree_of_read`: what is read is what the document in the bytes is taken for.
* `Codec.read_write`, `Codec.readValue_writeValue`: where the document is read back, only its
  shape or its value counts.
* `Codec.json_readValue_iff`: what is read back from JSON, up to the bits of a NaN.
* `Codec.messagePack_readValue_iff`: what is read back from MessagePack, bit by bit.
-/

namespace RecordService

open Value

namespace Codec

variable {codec : Codec} {v w : Value}

/-- Where a document is read back, only its shape decides. -/
theorem read_write {α : Type} {shape : Nat → Document → Except Fault α} {d : Document}
    (h : codec.tree (codec.write d) = (d, [])) :
    codec.read shape (codec.write d) =
      (shape codec.nestingLimit d).mapError (PayloadError.ofFault codec) := by
  unfold read
  rw [h]
  simp only []
  cases shape codec.nestingLimit d with
  | error e => rfl
  | ok a => rfl

/-- Where the document of a value is read back, its value is what is read. -/
theorem readValue_writeValue
    (h : codec.tree (codec.write (v.toDocument codec)) = (v.toDocument codec, [])) :
    codec.readValue (codec.writeValue v) = .ok w ↔ Rereads codec codec.nestingLimit v w := by
  rw [readValue, writeValue, read_write h, mapError_eq_ok_iff]
  rfl

/-- What is read is what the document in the bytes is taken for, and they end with that. -/
theorem tree_of_read {α : Type} {shape : Nat → Document → Except Fault α} {b : Bytes} {a : α}
    (h : codec.read shape b = .ok a) :
    ∃ d, codec.tree b = (d, []) ∧ shape codec.nestingLimit d = .ok a := by
  cases htree : codec.tree b with
  | mk d rest =>
    simp only [read, htree] at h
    split at h
    · cases h
    · rename_i ha
      split at h <;> cases h
      rename_i hrest
      exact ⟨d, by rw [hrest], ha⟩

/-- What is read has the shape of the document that the bytes spell out. -/
theorem shape_of_read {α : Type} {shape : Nat → Document → Except Fault α} {b : Bytes} {a : α}
    (h : codec.read shape b = .ok a) : shape codec.nestingLimit (codec.tree b).1 = .ok a := by
  obtain ⟨d, htree, ha⟩ := tree_of_read h
  rw [htree]
  exact ha

/-- An integer is written without a sign or as a negative one. -/
theorem ofInt_toInt_cases {motive : Document → Prop} (m : Int64)
    (natural : ∀ n < 2 ^ 64, motive (.natural (Document.roomOfNat n) n))
    (negative : ∀ k : Int, -2 ^ 63 ≤ k → k < 0 →
      motive (.integer (Document.roomOfNegative k) k)) : motive (.ofInt m.toInt) := by
  have hlow : -2 ^ 63 ≤ m.toInt := Int64.le_toInt m
  have hhigh : m.toInt < 2 ^ 63 := Int64.toInt_lt m
  unfold Document.ofInt
  split
  · exact natural _ (by omega)
  · exact negative _ hlow (by omega)

/-! ## JSON -/

theorem json_legible_tagged (tag body : String) : Json.Legible (tagged tag body) :=
  .map (by simp) (by simpa using .text body)

/-- The document of a value is legible if its doubles are. -/
theorem json_legible_toDocument
    (h : v.Everywhere fun u => ∀ x, u = float x → ¬x.IsSpecial → Json.ReadsBack x) :
    Json.Legible (v.toDocument .json) := by
  induction v using Value.induct with
  | leaf v hv =>
    cases v with
    | null => exact .null
    | bool b => exact .bool b
    | int m => exact ofInt_toInt_cases m (fun _ => .natural) fun _ => .negative
    | float x =>
      cases hx : x.specialName? with
      | none =>
        simp only [toDocument, hx]
        exact .float (h.self x rfl (Double.specialName?_eq_none_iff.mp hx))
      | some name =>
        simp only [toDocument, hx]
        exact json_legible_tagged doubleTag name
    | string s => exact .text s
    | blob b => exact json_legible_tagged bytesTag _
    | geoJson s => exact json_legible_tagged geoJsonTag s
    | list => exact hv.elim
    | map => exact hv.elim
  | list items ih =>
    have hitems := (everywhere_list.mp h).2
    rw [toDocument, itemDocuments_eq_map]
    exact .list (List.forall_mem_map.mpr fun v hv => ih v hv (hitems v hv))
  | map entries ih =>
    have hentries := (everywhere_map.mp h).2
    rw [toDocument, entryDocuments_eq_map]
    refine .map (List.forall_mem_map.mpr fun e _ => ⟨e.1, rfl⟩) ?_
    exact List.forall_mem_map.mpr fun e he => ih e he (hentries e he)

/-- A value is read back from JSON, up to the bits of a NaN, if and only if nothing in it spells a
tagged value and it nests no deeper than the reader follows. Its finite doubles have to be read
back, which is for their digits to decide. -/
theorem json_readValue_iff (hwf : v.WellFormed)
    (hdoubles : ∀ x, (float x).Within v → ¬x.IsSpecial → Json.ReadsBack x) :
    (∃ w, readValue .json (writeValue .json v) = .ok w ∧ w.mergeNaN = v.mergeNaN) ↔
      (∀ u : Value, u.Within v → ¬u.Lookalike) ∧ v.nesting .json ≤ 127 := by
  have hlegible := json_legible_toDocument (v := v) fun u hu x hx => hdoubles x (hx ▸ hu)
  have htree : tree .json (write .json (v.toDocument .json)) = (v.toDocument .json, []) := by
    simp only [tree, write, Json.read_print hlegible]
    rfl
  simp only [readValue_writeValue htree]
  constructor
  · rintro ⟨w, hread, hw⟩
    exact hread.untagged_and_nesting_le hwf hw
  · rintro ⟨hu, hn⟩
    exact ⟨v.mergeNaN, rereads_told hwf hu hn, mergeNaN_mergeNaN v⟩

/-- One and a half. -/
def oneAndHalf : Double := ⟨0x3FF8000000000000⟩

/-- A list of a double and a map with a tag for a key and no text under it. -/
def sample : Value := .list [.float oneAndHalf, .map [(doubleTag, .float .nan)]]

theorem sample_everywhere {P : Value → Prop} (hself : P sample) (hdouble : P (.float oneAndHalf))
    (hmap : P (.map [(doubleTag, .float .nan)])) (hnan : P (.float .nan)) :
    sample.Everywhere P := by
  have hleaf : ∀ x, P (.float x) → (float x).Everywhere P :=
    fun x => (everywhere_leaf (v := .float x) trivial).mpr
  refine everywhere_list.mpr ⟨hself, List.forall_mem_cons.mpr ⟨hleaf _ hdouble, ?_⟩⟩
  refine List.forall_mem_singleton.mpr (everywhere_map.mpr ⟨hmap, ?_⟩)
  exact List.forall_mem_singleton.mpr (hleaf _ hnan)

theorem sample_wellFormed : sample.WellFormed := by
  refine sample_everywhere nofun nofun ?_ nofun
  rintro _ ⟨⟩
  exact List.pairwise_singleton _ _

theorem sample_untagged : ∀ u : Value, u.Within sample → ¬u.Lookalike := by
  refine sample_everywhere ?_ ?_ ?_ ?_ <;> rintro ⟨tag, -, body, h⟩ <;> cases h

theorem readsBack_oneAndHalf : Json.ReadsBack oneAndHalf := by
  have htext : Json.numberText oneAndHalf = String.ofList ['1', '.', '5'] := by decide +kernel
  have hdouble : Json.jsonDouble? ⟨false, ['1'], some ['5'], none⟩ = some oneAndHalf := by
    decide +kernel
  refine ⟨⟨false, ['1'], some ['5'], none⟩, ?_, ?_⟩
  · rw [htext, Bytes.utf8_ofList (by simp)]
    rfl
  · simp [Json.NumberToken.toDocument, hdouble]

theorem json_readValue_sample :
    ∃ w, readValue .json (writeValue .json sample) = .ok w ∧ w.mergeNaN = sample.mergeNaN := by
  have hdoubles : sample.Everywhere fun u =>
      ∀ x, u = float x → ¬x.IsSpecial → Json.ReadsBack x := by
    refine sample_everywhere nofun ?_ nofun ?_
    · rintro _ ⟨⟩ _
      exact readsBack_oneAndHalf
    · rintro _ ⟨⟩ hx
      exact absurd (by decide) hx
  exact (json_readValue_iff sample_wellFormed fun x hx => hdoubles _ hx x rfl).mpr
    ⟨sample_untagged, by decide⟩

/-! ## MessagePack -/

theorem messagePack_legible_geoJson {s : String} (h : (Bytes.utf8 s).length < 2 ^ 32) :
    MessagePack.Legible (tagged geoJsonTag s) := by
  have htag : (Bytes.utf8 geoJsonTag).length < 2 ^ 32 := by decide
  exact .map (by simp) (by simpa using .text htag) (by simpa using .text h)

/-- The document of a value is legible if nothing in it is too long. -/
theorem messagePack_legible_toDocument (h : v.Everywhere Fits) :
    MessagePack.Legible (v.toDocument .messagePack) := by
  induction v using Value.induct with
  | leaf v hv =>
    have hself := h.self
    cases v with
    | null => exact .null
    | bool b => exact .bool b
    | int m => exact ofInt_toInt_cases m (fun _ => .natural) fun _ => .negative
    | float x => exact .float x
    | string s => exact .text hself
    | blob b => exact .bytes hself
    | geoJson s => exact messagePack_legible_geoJson hself
    | list => exact hv.elim
    | map => exact hv.elim
  | list items ih =>
    obtain ⟨hself, hitems⟩ := everywhere_list.mp h
    rw [toDocument, itemDocuments_eq_map]
    exact .list (by rwa [List.length_map])
      (List.forall_mem_map.mpr fun v hv => ih v hv (hitems v hv))
  | map entries ih =>
    obtain ⟨⟨hself, hkeys⟩, hentries⟩ := everywhere_map.mp h
    rw [toDocument, entryDocuments_eq_map]
    exact .map (by rwa [List.length_map])
      (List.forall_mem_map.mpr fun e he => .text (hkeys e he))
      (List.forall_mem_map.mpr fun e he => ih e he (hentries e he))

/-- A value without anything too long for its header is read back from MessagePack if and only if
nothing in it spells a tagged value and it nests no deeper than the reader follows. -/
theorem messagePack_readValue_iff (hwf : v.WellFormed) (hfits : ∀ u : Value, u.Within v → Fits u) :
    readValue .messagePack (writeValue .messagePack v) = .ok v ↔
      (∀ u : Value, u.Within v → ¬u.Lookalike) ∧ v.nesting .messagePack ≤ 1023 := by
  have hlegible := messagePack_legible_toDocument (v := v) hfits
  have htree : tree .messagePack (write .messagePack (v.toDocument .messagePack)) =
      (v.toDocument .messagePack, []) := by
    simp only [tree, write, MessagePack.read_print hlegible]
    rfl
  rw [readValue_writeValue htree]
  constructor
  · intro hread
    exact hread.untagged_and_nesting_le hwf rfl
  · rintro ⟨hu, hn⟩
    exact rereads_told hwf hu hn

theorem messagePack_readValue_sample :
    readValue .messagePack (writeValue .messagePack sample) = .ok sample := by
  have hfits : sample.Everywhere Fits := by
    refine sample_everywhere (by decide : 2 < 2 ^ 32) trivial ⟨by decide, ?_⟩ trivial
    exact List.forall_mem_singleton.mpr (by decide)
  exact (messagePack_readValue_iff sample_wellFormed hfits).mpr ⟨sample_untagged, by decide⟩

end Codec
end RecordService
