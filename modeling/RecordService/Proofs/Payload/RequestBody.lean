import RecordService.Payload.Operation
import RecordService.Proofs.Payload.RoundTrip
import RecordService.Proofs.Record.NaN

/-!
# Request bodies and their bytes

A request body is a map of bins, a list of operations or a list of commands. It is written as a
document in either format, and read back from its bytes for what it is.

* `Value.survey_toDocument`, `Value.keep_toDocument`: the document of a value can be passed over
  and is looked into later as it was.
* `Bins.ofDocument_toDocument`, `Operation.ofDocument_toDocument`,
  `OperationsBody.ofDocument_toDocument`: the shapes are read back.
* `Codec.read_write`: only the shape decides on the bytes of a document that is read back.
-/

namespace RecordService

variable {codec : Codec} {n : Nat}

/-! ## Passing over -/

namespace Document

theorem keepItems_eq_map (items : List Document) : keepItems items = items.map keep := by
  induction items with
  | nil => rfl
  | cons d rest ih => rw [keepItems, ih, List.map_cons]

theorem keepEntries_eq_map (entries : List (Document × Document)) :
    keepEntries entries = entries.map fun e => (e.1.keep, e.2.keep) := by
  induction entries with
  | nil => rfl
  | cons e rest ih => rw [keepEntries, ih, List.map_cons]

theorem surveyItems_eq_ok {bound : Option Nat} {items : List Document}
    (h : ∀ d ∈ items, d.survey bound = .ok ()) : surveyItems bound items = .ok () := by
  induction items with
  | nil => rfl
  | cons d rest ih =>
    obtain ⟨hd, hrest⟩ := List.forall_mem_cons.mp h
    rw [surveyItems, hd]
    exact ih hrest

theorem surveyEntries_eq_ok {bound : Option Nat} {entries : List (Document × Document)}
    (h : ∀ e ∈ entries, e.1.survey bound = .ok () ∧ e.2.survey bound = .ok ()) :
    surveyEntries bound entries = .ok () := by
  induction entries with
  | nil => rfl
  | cons e rest ih =>
    obtain ⟨⟨hkey, hvalue⟩, hrest⟩ := List.forall_mem_cons.mp h
    rw [surveyEntries, hkey, hvalue]
    exact ih hrest

end Document

namespace Value

theorem keep_toDocument (v : Value) : (v.toDocument codec).keep = v.toDocument codec := by
  induction v using induct with
  | leaf v hv =>
    cases v with
    | int m =>
      exact Codec.ofInt_toInt_cases (motive := fun d => d.keep = d) m (fun _ _ => rfl)
        fun _ _ _ => rfl
    | float x => cases codec <;> cases hx : x.specialName? <;> simp only [toDocument, hx] <;> rfl
    | blob b => cases codec <;> rfl
    | list => exact hv.elim
    | map => exact hv.elim
    | _ => rfl
  | list items ih =>
    simp only [toDocument, itemDocuments_eq_map, Document.keep, Document.keepItems_eq_map,
      List.map_map]
    exact congrArg Document.list (List.map_congr_left ih)
  | map entries ih =>
    simp only [toDocument, entryDocuments_eq_map, Document.keep, Document.keepEntries_eq_map,
      List.map_map]
    exact congrArg Document.map (List.map_congr_left fun e he => congrArg _ (ih e he))

theorem survey_tagged {tag body : String} (h : 1 ≤ n) :
    (tagged tag body).survey (some n) = .ok () := by
  cases n with
  | zero => exact absurd h (Nat.not_succ_le_zero 0)
  | succ n => rfl

/-- The document of a value can be passed over where it can be read. -/
theorem survey_toDocument {v : Value} (h : v.nesting codec ≤ n) :
    (v.toDocument codec).survey (some n) = .ok () := by
  induction v using induct generalizing n with
  | leaf v hv =>
    cases v with
    | int m =>
      exact Codec.ofInt_toInt_cases (motive := fun d => d.survey (some n) = .ok ()) m
        (fun _ _ => rfl) fun _ _ _ => rfl
    | float x =>
      cases codec with
      | messagePack => rfl
      | json =>
        cases hx : x.specialName? with
        | none => simp only [toDocument, hx, Document.survey]
        | some name =>
          rw [nesting, if_pos ⟨rfl, Double.isSpecial_of_specialName? hx⟩] at h
          simpa only [toDocument, hx] using survey_tagged h
    | blob b =>
      cases codec with
      | messagePack => rfl
      | json => exact survey_tagged h
    | geoJson s => exact survey_tagged h
    | list => exact hv.elim
    | map => exact hv.elim
    | _ => rfl
  | list items ih =>
    cases n with
    | zero => simp [nesting] at h
    | succ n =>
      rw [toDocument, itemDocuments_eq_map]
      exact Document.surveyItems_eq_ok
        (List.forall_mem_map.mpr fun v hv => ih v hv (nesting_list_le.mp h v hv))
  | map entries ih =>
    cases n with
    | zero => simp [nesting] at h
    | succ n =>
      rw [toDocument, entryDocuments_eq_map]
      exact Document.surveyEntries_eq_ok
        (List.forall_mem_map.mpr fun e he => ⟨rfl, ih e he (nesting_map_le.mp h e he)⟩)

end Value

/-! ## Bins -/

theorem Value.mergeNaN_told (codec : Codec) (v : Value) : (v.told codec).mergeNaN = v.mergeNaN := by
  cases codec with
  | json => exact v.mergeNaN_mergeNaN
  | messagePack => rfl

/-- A value that is read back from a format where `n` containers may nest: its maps are in order,
nothing in it spells a tagged value, and it nests no deeper. -/
structure Value.Sound (codec : Codec) (n : Nat) (v : Value) : Prop where
  wellFormed : v.WellFormed
  untagged : v.Untagged
  nesting_le : v.nesting codec ≤ n

theorem Value.Sound.rereads {v : Value} (h : v.Sound codec n) :
    Value.ofDocument n (v.toDocument codec) = .ok (v.told codec) :=
  Value.rereads_told h.wellFormed h.untagged h.nesting_le

theorem Bins.ofDocument_toDocument {bins : Bins} (hs : Ordered.Sorted bins)
    (h : ∀ e ∈ bins, e.2.Sound codec n) :
    Bins.ofDocument (n + 1) (Bins.toDocument codec bins) =
      .ok (bins.map fun e => (e.1, e.2.told codec)) := by
  have hread : List.Forall₂ (Value.EntryRereads codec n) bins
      (bins.map fun e => (e.1, e.2.told codec)) := by
    rw [List.forall₂_map_right_iff, List.forall₂_same]
    exact fun e he => ⟨rfl, (h e he).rereads⟩
  refine Value.ofFields_eq_ok_iff.mpr ⟨_, hread, ?_⟩
  exact (Ordered.ofEntries_of_sorted (Value.sorted_of_entryRereads hread hs)).symm

theorem Bins.mergeNaN_told (codec : Codec) (bins : Bins) :
    Bins.mergeNaN (bins.map fun e => (e.1, e.2.told codec)) = bins.mergeNaN := by
  rw [mergeNaN, List.map_map]
  exact List.map_congr_left fun e _ => congrArg (Prod.mk e.1) (e.2.mergeNaN_told codec)

/-! ## Operations -/

namespace Operation

theorem mergeNaN_told (codec : Codec) (ops : List Operation) :
    (ops.map (mapValue (Value.told codec))).map mergeNaN = ops.map mergeNaN := by
  rw [List.map_map]
  refine List.map_congr_left fun op _ => ?_
  cases op with
  | put bin v => exact congrArg (put bin) (v.mergeNaN_told codec)
  | add bin v => exact congrArg (add bin) (v.mergeNaN_told codec)
  | _ => rfl

/-- The value of an operation. -/
def value? : Operation → Option Value
  | put _ v | add _ v => some v
  | _ => none

/-- What an operation does. -/
def kind : Operation → Kind
  | put .. => .put
  | add .. => .add
  | append .. => .append
  | prepend .. => .prepend
  | deleteBin _ => .deleteBin
  | touch => .touch
  | read _ => .read
  | get => .get

/-- The documents of the operands of an operation, by their names. -/
def operands (codec : Codec) : Operation → List (String × Document)
  | put bin v => [("bin", .text bin), ("value", v.toDocument codec)]
  | add bin v => [("bin", .text bin), ("incr", v.toDocument codec)]
  | append bin s | prepend bin s => [("bin", .text bin), ("value", .text s)]
  | deleteBin bin | read bin => [("bin", .text bin)]
  | touch | get => []

theorem toDocument_eq (op : Operation) :
    op.toDocument codec = .object ((typeField, .text op.kind.name) :: op.operands codec) := by
  cases op <;> rfl

theorem kindOf_name (k : Kind) : kindOf codec n (.text k.name) = .ok k := by
  cases k <;> rfl

/-- The fields of an operation can all be passed over, and are kept as they are. -/
theorem gather_operands {kind : Option Kind} {fields : List (String × Document)}
    (h : ∀ f ∈ fields, f.1 ≠ typeField ∧ f.2.survey (some n) = .ok () ∧ f.2.keep = f.2)
    (found : List (Document × Document)) :
    gather codec n kind found (fields.map fun f => (.text f.1, f.2)) =
      .ok (kind, found.reverse ++ fields.map fun f => (.text f.1, f.2)) := by
  induction fields generalizing found with
  | nil => rw [List.map_nil, gather, List.append_nil]
  | cons f rest ih =>
    obtain ⟨⟨hname, hsurvey, hkeep⟩, hrest⟩ := List.forall_mem_cons.mp h
    have hother : isTypeField (.text f.1) = false := beq_eq_false_iff_ne.mpr hname
    rw [List.map_cons, gather, hother, if_neg Bool.false_ne_true, hsurvey, hkeep]
    show gather codec n kind ((Document.text f.1, f.2) :: found) _ = _
    rw [ih hrest, List.reverse_cons, List.append_assoc, List.singleton_append]

theorem operands_kept {op : Operation} (h : ∀ v ∈ op.value?, v.Sound codec n) :
    ∀ f ∈ op.operands codec,
      f.1 ≠ typeField ∧ f.2.survey (some n) = .ok () ∧ f.2.keep = f.2 := by
  have htext : ∀ s : String, (Document.text s).survey (some n) = .ok () ∧
      (Document.text s).keep = .text s := fun _ => ⟨rfl, rfl⟩
  have hvalue : ∀ v ∈ op.value?, (v.toDocument codec).survey (some n) = .ok () ∧
      (v.toDocument codec).keep = v.toDocument codec :=
    fun v hv => ⟨Value.survey_toDocument (h v hv).nesting_le, v.keep_toDocument⟩
  cases op <;> simp_all [operands, value?, typeField]

/-- The operands of an operation are read back, and make it up again. -/
theorem build_operands {op : Operation} (h : ∀ v ∈ op.value?, v.Sound codec n) :
    ((readOperands op.kind n [] {} ((op.operands codec).map fun f => (.text f.1, f.2))).bind
      (build op.kind)) = .ok (op.mapValue (Value.told codec)) := by
  cases op with
  | put bin v =>
    show ((Except.map _ (Value.ofDocument n (v.toDocument codec))).bind _).bind _ = _
    rw [(h v rfl).rereads]
    rfl
  | add bin v =>
    show ((Except.map _ (Value.ofDocument n (v.toDocument codec))).bind _).bind _ = _
    rw [(h v rfl).rereads]
    rfl
  | _ => rfl

/-- An operation is read back from its document, its value as its format tells it. -/
theorem ofDocument_toDocument {op : Operation} (h : ∀ v ∈ op.value?, v.Sound codec n) :
    ofDocument codec (n + 1) (op.toDocument codec) = .ok (op.mapValue (Value.told codec)) := by
  let fields := (op.operands codec).map fun f => (Document.text f.1, f.2)
  have hgather : gather codec n none [] ((.text typeField, .text op.kind.name) :: fields) =
      .ok (some op.kind, fields) := by
    rw [gather]
    show (kindOf codec n (.text op.kind.name)).bind _ = _
    rw [kindOf_name]
    exact gather_operands (operands_kept h) []
  have hfields : (if op.kind.operands.isEmpty then [] else fields) = fields := by
    cases op <;> rfl
  rw [toDocument_eq]
  show (gather codec n none [] ((.text typeField, .text op.kind.name) :: fields)).bind _ = _
  rw [hgather]
  show (readOperands op.kind n [] {} (if op.kind.operands.isEmpty then [] else fields)).bind
    (build op.kind) = _
  rw [hfields]
  exact build_operands h

end Operation

/-- A list of operations is read back from the document of its body. -/
theorem OperationsBody.ofDocument_toDocument {ops : List Operation}
    (h : ∀ op ∈ ops, ∀ v ∈ op.value?, v.Sound codec n) :
    OperationsBody.ofDocument codec (n + 3) (OperationsBody.toDocument codec ⟨ops⟩) =
      .ok ⟨ops.map (Operation.mapValue (Value.told codec))⟩ := by
  have hops : (ops.map (Operation.toDocument codec)).mapM (Operation.ofDocument codec (n + 1)) =
      .ok (ops.map (Operation.mapValue (Value.told codec))) :=
    mapM_map_eq_ok fun op hop => Operation.ofDocument_toDocument (h op hop)
  show (((((ops.map (Operation.toDocument codec)).mapM (Operation.ofDocument codec (n + 1))).map
    some).bind Except.ok).bind fun found => (required "opsList" found).bind _) = _
  rw [hops]
  rfl

/-! ## Commands -/

theorem Codec.texts_map (texts : List String) :
    Codec.texts (n + 1) (.list (texts.map .text)) = .ok texts := by
  have htexts := mapM_map_eq_ok (f := Document.text) (g := Document.asText n) (k := id)
    fun s (_ : s ∈ texts) => rfl
  rwa [List.map_id] at htexts

/-! ## Documents that are read back -/

theorem Json.legible_object {fields : List (String × Document)}
    (h : ∀ f ∈ fields, Legible f.2) : Legible (.object fields) :=
  .map (List.forall_mem_map.mpr fun f _ => ⟨f.1, rfl⟩) (List.forall_mem_map.mpr h)

theorem MessagePack.printable_object {fields : List (String × Document)}
    (h : ∀ f ∈ fields, Printable f.2) : Printable (.object fields) :=
  .map (List.forall_mem_map.mpr fun f _ => .text f.1) (List.forall_mem_map.mpr h)

theorem Value.printable_toDocument (v : Value) :
    MessagePack.Printable (v.toDocument .messagePack) := by
  induction v using induct with
  | leaf v hv =>
    cases v with
    | null => exact .null
    | bool b => exact .bool b
    | int m => exact Codec.ofInt_toInt_cases m (fun _ => .natural) fun _ => .negative
    | float x => exact .float x
    | string s => exact .text s
    | blob b => exact .bytes b
    | geoJson s => exact MessagePack.printable_object (List.forall_mem_singleton.mpr (.text s))
    | list => exact hv.elim
    | map => exact hv.elim
  | list items ih =>
    rw [toDocument, itemDocuments_eq_map]
    exact .list (List.forall_mem_map.mpr ih)
  | map entries ih =>
    rw [toDocument, entryDocuments_eq_map]
    exact .map (List.forall_mem_map.mpr fun e _ => .text e.1) (List.forall_mem_map.mpr ih)

namespace Operation

/-- What holds of texts and of the value of an operation holds of all its fields. -/
theorem forall_fields {P : Document → Prop} {op : Operation} (htext : ∀ s, P (.text s))
    (hvalue : ∀ v ∈ op.value?, P (v.toDocument codec)) :
    ∀ f ∈ (typeField, .text op.kind.name) :: op.operands codec, P f.2 := by
  cases op <;> simp_all [operands, value?]

theorem json_legible_toDocument {op : Operation}
    (h : ∀ v ∈ op.value?, Json.Legible (v.toDocument .json)) :
    Json.Legible (op.toDocument .json) := by
  rw [toDocument_eq]
  exact Json.legible_object (forall_fields .text h)

theorem printable_toDocument (op : Operation) :
    MessagePack.Printable (op.toDocument .messagePack) := by
  rw [toDocument_eq]
  exact MessagePack.printable_object (forall_fields .text fun v _ => v.printable_toDocument)

end Operation

/-! ## Bodies -/

/-- What the body of a request says. -/
inductive RequestBody
  | bins (entries : Bins)
  | operations (ops : List Operation)
  | commands (texts : List String)

namespace RequestBody

/-- The document of a body. -/
def toDocument (codec : Codec) : RequestBody → Document
  | .bins entries => Bins.toDocument codec entries
  | .operations ops => OperationsBody.toDocument codec ⟨ops⟩
  | .commands texts => .list (texts.map .text)

/-- The bytes of a body. -/
def write (codec : Codec) (body : RequestBody) : Bytes := codec.write (body.toDocument codec)

/-- The values in a body. -/
def values : RequestBody → List Value
  | .bins entries => entries.map (·.2)
  | .operations ops => ops.filterMap Operation.value?
  | .commands _ => []

/-- How many containers stand around a value in a body. -/
def depth : RequestBody → Nat
  | .bins _ | .commands _ => 1
  | .operations _ => 3

/-- A body that both formats can tell: its maps are in order, no value in it spells a tagged value,
and no value nests deeper than the readers follow. -/
structure Sound (body : RequestBody) : Prop where
  sorted : ∀ entries, body = bins entries → Ordered.Sorted entries
  wellFormed : ∀ v ∈ body.values, v.WellFormed
  untagged : ∀ v ∈ body.values, ∀ u : Value, u.Within v → ¬u.Lookalike
  nesting_le : ∀ codec, ∀ v ∈ body.values, v.nesting codec + body.depth ≤ codec.nestingLimit

/-- The finite doubles in a body are read back from their digits. -/
def ReadsBack (body : RequestBody) : Prop :=
  ∀ v ∈ body.values, ∀ x, (Value.float x).Within v → ¬x.IsSpecial → Json.ReadsBack x

/-- The bytes of a body spell out its document. -/
def Readable (codec : Codec) (body : RequestBody) : Prop :=
  codec.tree (body.write codec) = (body.toDocument codec, [])

variable {body : RequestBody}

theorem Sound.value (h : body.Sound) (codec : Codec) {v : Value} (hv : v ∈ body.values) :
    v.Sound codec (codec.nestingLimit - body.depth) :=
  ⟨h.wellFormed v hv, h.untagged v hv, by have := h.nesting_le codec v hv; omega⟩

/-! ### Bytes -/

theorem readable_json (h : body.ReadsBack) : body.Readable .json := by
  have hvalue : ∀ v ∈ body.values, Json.Legible (v.toDocument .json) := fun v hv =>
    Codec.json_legible_toDocument fun u hu x hx => h v hv x (hx ▸ hu)
  have hlegible : Json.Legible (body.toDocument .json) := by
    cases body with
    | bins entries =>
      rw [toDocument, Bins.toDocument, Value.entryDocuments_eq_map]
      refine .map (List.forall_mem_map.mpr fun e _ => ⟨e.1, rfl⟩) ?_
      exact List.forall_mem_map.mpr fun e he => hvalue e.2 (List.mem_map_of_mem he)
    | operations ops =>
      have hops : ∀ op ∈ ops, Json.Legible (op.toDocument .json) := fun op hop =>
        op.json_legible_toDocument fun v hv => hvalue v (List.mem_filterMap.mpr ⟨op, hop, hv⟩)
      exact Json.legible_object
        (List.forall_mem_singleton.mpr (.list (List.forall_mem_map.mpr hops)))
    | commands texts =>
      exact Json.Legible.list (List.forall_mem_map.mpr fun s _ => .text s)
  simp only [Readable, Codec.tree, write, Codec.write, Json.read_print hlegible]
  rfl

theorem printable_toDocument (body : RequestBody) :
    MessagePack.Printable (body.toDocument .messagePack) := by
  cases body with
  | bins entries =>
    rw [toDocument, Bins.toDocument, Value.entryDocuments_eq_map]
    exact .map (List.forall_mem_map.mpr fun e _ => .text e.1)
      (List.forall_mem_map.mpr fun e _ => e.2.printable_toDocument)
  | operations ops =>
    exact MessagePack.printable_object (List.forall_mem_singleton.mpr
      (.list (List.forall_mem_map.mpr fun op _ => op.printable_toDocument)))
  | commands texts =>
    exact MessagePack.Printable.list (List.forall_mem_map.mpr fun s _ => .text s)

theorem readable_messagePack (h : (body.write .messagePack).length < 2 ^ 32) :
    body.Readable .messagePack := by
  have hlegible := (printable_toDocument body).legible h
  simp only [Readable, Codec.tree, write, Codec.write, MessagePack.read_print hlegible]
  rfl

theorem write_ne_nil (codec : Codec) (body : RequestBody) : body.write codec ≠ [] := by
  cases codec with
  | json =>
    cases body with
    | bins | operations | commands => exact List.cons_ne_nil _ _
  | messagePack => exact List.length_pos_iff.mp (printable_toDocument body).length_pos

end RequestBody
end RecordService
