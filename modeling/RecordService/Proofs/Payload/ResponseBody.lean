import RecordService.Payload.Body
import RecordService.Proofs.Payload.RequestBody

/-!
# Response bodies and their bytes

The body of a response is a map of named fields. It is written as a document in either format, and
read back from its bytes field by field.

* `readFields_object`: a structure is read from the fields that are written of it.
* `KeyBody.ofDocument_toDocument`, `RecordBody.ofDocument_toDocument`,
  `ScanBody.ofDocument_toDocument`, `TaskBody.ofDocument_toDocument`,
  `ClusterBody.ofDocument_toDocument`: the shapes are read back.
* `Codec.Legible`: the documents that a format tells from all others. `Codec.read_legible`: they are
  read back from their bytes.
* `RecordBody.legible`, `ScanBody.legible`, `TaskBody.legible`, `ClusterBody.legible`,
  `ErrorBody.legible`: the bodies are told if their parts are.
-/

namespace RecordService

variable {codec : Codec} {n : Nat}

/-! ## Structures -/

section

variable {σ : Type} {names : List String} {fit : Nat → Nat → Document → σ → Except Fault σ}

theorem fieldIndex_name (h : names.Nodup) {i : Nat} (hi : i < names.length) :
    fieldIndex names n (.text (names.getD i "")) = .ok (some i) := by
  have hname : names.getD i "" = names[i] := by simp [hi]
  have hindex : names.idxOf? names[i] = some i := by
    refine List.idxOf?_eq_some_iff.mpr ⟨hi, rfl, fun j hj heq => ?_⟩
    exact Nat.ne_of_lt hj ((List.getElem_inj h).mp heq)
  rw [hname, fieldIndex, hindex]

/-- The fields of a structure, by their places, as the entries of a map. -/
def namedFields (names : List String) (fields : List (Nat × Document)) :
    List (Document × Document) :=
  fields.map fun f => (.text (names.getD f.1 ""), f.2)

theorem readEntries_namedFields (hnames : names.Nodup) {fields : List (Nat × Document)}
    (hlt : ∀ f ∈ fields, f.1 < names.length) (hplaces : (fields.map (·.1)).Nodup)
    {seen : List Nat} (hseen : ∀ f ∈ fields, f.1 ∉ seen) (s : σ) :
    readEntries codec names fit n seen s (namedFields names fields) =
      fields.foldlM (fun s f => fit f.1 n f.2 s) s := by
  induction fields generalizing seen s with
  | nil => rfl
  | cons f rest ih =>
    obtain ⟨hf, hrest⟩ := List.forall_mem_cons.mp hlt
    obtain ⟨hnew, hnewrest⟩ := List.forall_mem_cons.mp hseen
    obtain ⟨hapart, hdistinct⟩ := List.nodup_cons.mp hplaces
    -- No place comes up twice, so no field is refused as one that has been seen.
    have hother : ∀ g ∈ rest, g.1 ∉ f.1 :: seen := by
      intro g hg hmem
      rcases List.mem_cons.mp hmem with heq | hmem
      · exact hapart (List.mem_map.mpr ⟨g, hg, heq⟩)
      · exact hnewrest g hg hmem
    have hcontains : seen.contains f.1 = false := by simpa using hnew
    rw [namedFields, List.map_cons, readEntries, fieldIndex_name hnames hf, List.foldlM_cons]
    simp only [Except.bind, hcontains]
    cases hfit : fit f.1 n f.2 s with
    | error e => rfl
    | ok s' => exact ih hrest hdistinct hother s'

/-- A structure is read from the fields that are written of it, in any order, each once. -/
theorem readFields_object (hnames : names.Nodup) {fields : List (Nat × Document)}
    (hlt : ∀ f ∈ fields, f.1 < names.length) (hplaces : (fields.map (·.1)).Nodup)
    (optional : Nat) (s : σ) :
    readFields codec names optional fit s (n + 1) (.map (namedFields names fields)) =
      fields.foldlM (fun s f => fit f.1 n f.2 s) s :=
  readEntries_namedFields hnames hlt hplaces (fun _ _ => List.not_mem_nil) s

end

/-! ## Numbers and texts -/

theorem Document.asNat_ofNat {bound m : Nat} (h : m < bound) :
    (Document.ofNat m).asNat bound = .ok m := if_pos h

theorem Document.asOption_ofNat {bound m : Nat} (h : m < bound) :
    (Document.ofNat m).asOption (Document.asNat bound) = .ok (some m) := by
  show ((Document.ofNat m).asNat bound).map some = _
  rw [asNat_ofNat h]
  rfl

theorem Document.asInt_ofInt (m : Int64) : (Document.ofInt m.toInt).asInt = .ok m := by
  have hlt : m.toInt < 2 ^ 63 := Int64.toInt_lt m
  unfold Document.ofInt
  split
  · rename_i hpos
    have hnat : m.toInt.toNat < 2 ^ 63 := by omega
    rw [asInt, if_pos hnat, ← Int64.ofInt_eq_ofNat, Int.toNat_of_nonneg hpos, Int64.ofInt_toInt]
  · rw [asInt, Int64.ofInt_toInt]

theorem optionalText_optionalDocument (s : Option String) :
    optionalText n (optionalDocument .text s) = .ok s := by cases s <;> rfl

/-! ## Records -/

/-- The body with the value of the key as a format tells it. -/
def KeyBody.told (codec : Codec) (b : KeyBody) : KeyBody :=
  { b with userKey := b.userKey.told codec }

theorem KeyBody.ofDocument_toDocument {b : KeyBody} (h : b.userKey.Sound codec n) :
    ofDocument codec (n + 1) (b.toDocument codec) = .ok (b.told codec) := by
  have hfields : b.toDocument codec = .map (namedFields
      ["namespace", "setName", "userKey", "digest"] [(0, .text b.ns),
        (1, optionalDocument .text b.setName), (2, b.userKey.toDocument codec),
        (3, .text b.digest)]) := rfl
  unfold ofDocument
  rw [hfields, readFields_object]
  · simp only [List.foldlM_cons, List.foldlM_nil, fit, Document.asText,
      optionalText_optionalDocument, h.rereads]
    rfl
  · decide
  · simp
  · simp

/-- The body with its values as a format tells them. -/
def RecordBody.told (codec : Codec) (b : RecordBody) : RecordBody :=
  { b with
    bins := b.bins.map fun e => (e.1, e.2.told codec)
    key := b.key.told codec }

/-- In MessagePack nothing is lost. -/
@[simp]
theorem RecordBody.told_messagePack (b : RecordBody) : b.told .messagePack = b := by
  have hbins : (b.bins.map fun e => (e.1, e.2.told .messagePack)) = b.bins := List.map_id' b.bins
  rw [told, hbins]
  rfl

/-- A record is read back from its document. Its bins are a map, whatever it spells. -/
theorem RecordBody.ofDocument_toDocument {b : RecordBody} (hsorted : Ordered.Sorted b.bins)
    (hvalues : ∀ e ∈ b.bins, e.2.Sound codec n) (hkey : b.key.userKey.Sound codec n) :
    ofDocument codec (n + 2) (b.toDocument codec) = .ok (b.told codec) := by
  have hfields : b.toDocument codec = .map (namedFields ["bins", "generation", "ttl", "key"]
      [(0, b.bins.toDocument codec), (1, .ofNat b.generation.toNat), (2, .ofInt b.ttl.toInt),
        (3, b.key.toDocument codec)]) := rfl
  unfold ofDocument
  rw [hfields, readFields_object]
  · simp only [List.foldlM_cons, List.foldlM_nil, fit, Bins.ofDocument_toDocument hsorted hvalues,
      Document.asNat_ofNat b.generation.toNat_lt, Document.asInt_ofInt,
      KeyBody.ofDocument_toDocument hkey, Except.map, UInt32.ofNat_toNat]
    rfl
  · decide
  · simp
  · simp

/-! ## Pages -/

theorem PaginationBody.ofDocument_toDocument {b : PaginationBody} (h : b.totalRecords < 2 ^ 64) :
    ofDocument codec (n + 1) b.toDocument = .ok b := by
  have hfields : b.toDocument = .map (namedFields ["nextToken", "totalRecords"]
      [(0, optionalDocument .text b.nextToken), (1, .ofNat b.totalRecords)]) := rfl
  unfold ofDocument
  rw [hfields, readFields_object]
  · simp only [List.foldlM_cons, List.foldlM_nil, fit, optionalText_optionalDocument,
      Document.asNat_ofNat h]
    rfl
  · decide
  · simp
  · simp

/-- The body with its values as a format tells them. -/
def ScanBody.told (codec : Codec) (b : ScanBody) : ScanBody :=
  { b with records := b.records.map (RecordBody.told codec) }

@[simp]
theorem ScanBody.told_messagePack (b : ScanBody) : b.told .messagePack = b := by
  simp [told, funext RecordBody.told_messagePack]

theorem ScanBody.ofDocument_toDocument {b : ScanBody}
    (hsorted : ∀ r ∈ b.records, Ordered.Sorted r.bins)
    (hvalues : ∀ r ∈ b.records, ∀ e ∈ r.bins, e.2.Sound codec n)
    (hkeys : ∀ r ∈ b.records, r.key.userKey.Sound codec n)
    (hcount : b.pagination.totalRecords < 2 ^ 64) :
    ofDocument codec (n + 4) (b.toDocument codec) = .ok (b.told codec) := by
  have hfields : b.toDocument codec = .map (namedFields ["records", "pagination"]
      [(0, .list (b.records.map (RecordBody.toDocument codec))),
        (1, b.pagination.toDocument)]) := rfl
  have hrecords : Document.asList (RecordBody.ofDocument codec) (n + 3)
      (.list (b.records.map (RecordBody.toDocument codec))) =
        .ok (b.records.map (RecordBody.told codec)) :=
    mapM_map_eq_ok fun r hr =>
      RecordBody.ofDocument_toDocument (hsorted r hr) (hvalues r hr) (hkeys r hr)
  unfold ofDocument
  rw [hfields, readFields_object]
  · simp only [List.foldlM_cons, List.foldlM_nil, fit, hrecords,
      PaginationBody.ofDocument_toDocument hcount]
    rfl
  · decide
  · simp
  · simp

/-! ## Tasks -/

theorem TaskStatus.ofDocument_name (status : TaskStatus) :
    ofDocument codec n (.text status.name) = .ok status := by
  cases codec <;> cases status <;> rfl

/-- A task is read back from its document, and what is not known of it is not known again. -/
theorem TaskBody.ofDocument_toDocument {b : TaskBody}
    (hcount : ∀ m ∈ b.recordsProcessed, m < 2 ^ 64) :
    ofDocument codec (n + 1) b.toDocument = .ok b := by
  let known : List (Nat × Document) := [(0, .text b.taskId), (1, .text b.status.name),
    (2, .text b.submittedAt)]
  have hfields : b.toDocument = .map (namedFields
      ["taskId", "status", "submittedAt", "recordsProcessed", "error"]
      (known ++ (b.recordsProcessed.map fun m => (3, Document.ofNat m)).toList ++
        (b.error.map fun s => (4, Document.text s)).toList)) := by
    obtain ⟨taskId, status, submittedAt, recordsProcessed, error⟩ := b
    cases recordsProcessed <;> cases error <;> rfl
  unfold ofDocument
  rw [hfields, readFields_object]
  · obtain ⟨taskId, status, submittedAt, recordsProcessed, error⟩ := b
    cases recordsProcessed with
    | none =>
      cases error <;>
        simp only [known, List.cons_append, List.nil_append, Option.map, Option.toList,
          List.foldlM_cons, List.foldlM_nil, fit, Document.asText, TaskStatus.ofDocument_name] <;>
        rfl
    | some m =>
      cases error <;>
        simp only [known, List.cons_append, List.nil_append, Option.map, Option.toList,
          List.foldlM_cons, List.foldlM_nil, fit, Document.asText, TaskStatus.ofDocument_name,
          Document.asOption_ofNat (hcount m rfl)] <;>
        rfl
  · decide
  · cases b.recordsProcessed <;> cases b.error <;> simp [known]
  · cases b.recordsProcessed <;> cases b.error <;> simp [known]

/-! ## Clusters -/

theorem ClusterBody.ofDocument_toDocument (b : ClusterBody) :
    ofDocument codec (n + 2) b.toDocument = .ok b := by
  have hfields : b.toDocument = .map (namedFields ["nodes"] [(0, .list (b.nodes.map .text))]) := rfl
  have hnodes : Document.asList Document.asText (n + 1) (.list (b.nodes.map .text)) = .ok b.nodes :=
    Codec.texts_map b.nodes
  unfold ofDocument
  rw [hfields, readFields_object]
  · simp only [List.foldlM_cons, List.foldlM_nil, hnodes]
    rfl
  · decide
  · simp
  · simp

/-! ## Bytes -/

namespace Codec

/-- The documents that a format tells from all others. -/
def Legible : Codec → Document → Prop
  | .json => Json.Legible
  | .messagePack => MessagePack.Legible

/-- A length that a format can tell. JSON needs not tell any. -/
def TellsLength (codec : Codec) (length : Nat) : Prop := codec = .messagePack → length < 2 ^ 32

/-- A text of which a format can tell the length. -/
def TellsText (codec : Codec) (s : String) : Prop := codec.TellsLength (Bytes.utf8 s).length

variable {d : Document}

theorem tree_write (h : codec.Legible d) : codec.tree (codec.write d) = (d, []) := by
  cases codec with
  | json =>
    simp only [tree, write, Json.read_print h]
    rfl
  | messagePack =>
    simp only [tree, write, MessagePack.read_print h]
    rfl

/-- What a legible document is taken for is read back from its bytes. -/
theorem read_legible {α : Type} {shape : Nat → Document → Except Fault α} {a : α}
    (h : codec.Legible d) (ha : shape codec.nestingLimit d = .ok a) :
    codec.read shape (codec.write d) = .ok a := by
  rw [read_write (tree_write h), ha]
  rfl

theorem legible_null : codec.Legible .null := by
  cases codec with
  | json => exact .null
  | messagePack => exact .null

theorem legible_bool (b : Bool) : codec.Legible (.bool b) := by
  cases codec with
  | json => exact .bool b
  | messagePack => exact .bool b

theorem legible_text {s : String} (h : codec.TellsText s) : codec.Legible (.text s) := by
  cases codec with
  | json => exact .text s
  | messagePack => exact .text (h rfl)

theorem legible_optional {s : Option String} (h : ∀ t ∈ s, codec.TellsText t) :
    codec.Legible (optionalDocument .text s) := by
  cases s with
  | none => exact legible_null
  | some s => exact legible_text (h s rfl)

theorem legible_ofNat {m : Nat} (h : m < 2 ^ 64) : codec.Legible (.ofNat m) := by
  cases codec with
  | json => exact .natural h
  | messagePack => exact .natural h

theorem legible_ofInt (m : Int64) : codec.Legible (.ofInt m.toInt) := by
  cases codec with
  | json => exact ofInt_toInt_cases m (fun _ => .natural) fun _ => .negative
  | messagePack => exact ofInt_toInt_cases m (fun _ => .natural) fun _ => .negative

theorem legible_list {items : List Document} (h : codec.TellsLength items.length)
    (hitems : ∀ d ∈ items, codec.Legible d) : codec.Legible (.list items) := by
  cases codec with
  | json => exact .list hitems
  | messagePack => exact .list (h rfl) hitems

/-- A structure is legible if its fields are. It has few, and their names are short. -/
theorem legible_object {fields : List (String × Document)} (hcount : fields.length < 2 ^ 32)
    (hnames : ∀ f ∈ fields, (Bytes.utf8 f.1).length < 2 ^ 32)
    (h : ∀ f ∈ fields, codec.Legible f.2) : codec.Legible (.object fields) := by
  cases codec with
  | json => exact Json.legible_object h
  | messagePack =>
    exact .map (by rwa [List.length_map])
      (List.forall_mem_map.mpr fun f hf => .text (hnames f hf)) (List.forall_mem_map.mpr h)

end Codec

/-- A value of which a format tells all parts: JSON has to read back the digits of its finite
doubles, and MessagePack to tell the lengths of what is in it. -/
def Value.Tellable : Codec → Value → Prop
  | .json, v => ∀ x, (float x).Within v → ¬x.IsSpecial → Json.ReadsBack x
  | .messagePack, v => ∀ u : Value, u.Within v → u.Fits

theorem Value.legible_toDocument {v : Value} (h : v.Tellable codec) :
    codec.Legible (v.toDocument codec) := by
  cases codec with
  | json => exact Codec.json_legible_toDocument fun u hu x hx => h x (hx ▸ hu)
  | messagePack => exact Codec.messagePack_legible_toDocument h

theorem Bins.legible_toDocument {bins : Bins} (h : (Value.map bins).Tellable codec) :
    codec.Legible (bins.toDocument codec) := by
  have hread := Value.legible_toDocument h
  rwa [Value.toDocument] at hread

/-- The texts of a key. -/
def KeyBody.texts (b : KeyBody) : List String := b.ns :: b.digest :: b.setName.toList

theorem KeyBody.legible {b : KeyBody} (hkey : b.userKey.Tellable codec)
    (htexts : ∀ s ∈ b.texts, codec.TellsText s) : codec.Legible (b.toDocument codec) := by
  obtain ⟨hns, htexts⟩ := List.forall_mem_cons.mp htexts
  obtain ⟨hdigest, hset⟩ := List.forall_mem_cons.mp htexts
  refine Codec.legible_object (by simp) (by simp; decide) ?_
  simp only [List.forall_mem_cons]
  exact ⟨Codec.legible_text hns,
    Codec.legible_optional fun t ht => hset t (Option.mem_toList.mpr ht),
    Value.legible_toDocument hkey, Codec.legible_text hdigest, List.forall_mem_nil _⟩

theorem RecordBody.legible {b : RecordBody} (hbins : (Value.map b.bins).Tellable codec)
    (hkey : b.key.userKey.Tellable codec) (htexts : ∀ s ∈ b.key.texts, codec.TellsText s) :
    codec.Legible (b.toDocument codec) := by
  have hgeneration : b.generation.toNat < 2 ^ 64 := Nat.lt_trans b.generation.toNat_lt (by decide)
  refine Codec.legible_object (by simp) (by simp; decide) ?_
  simp only [List.forall_mem_cons]
  exact ⟨Bins.legible_toDocument hbins, Codec.legible_ofNat hgeneration,
    Codec.legible_ofInt b.ttl, KeyBody.legible hkey htexts, List.forall_mem_nil _⟩

theorem PaginationBody.legible {b : PaginationBody} (htoken : ∀ s ∈ b.nextToken, codec.TellsText s)
    (hcount : b.totalRecords < 2 ^ 64) : codec.Legible b.toDocument := by
  refine Codec.legible_object (by simp) (by simp; decide) ?_
  simp only [List.forall_mem_cons]
  exact ⟨Codec.legible_optional htoken, Codec.legible_ofNat hcount, List.forall_mem_nil _⟩

theorem ScanBody.legible {b : ScanBody} (hlength : codec.TellsLength b.records.length)
    (hrecords : ∀ r ∈ b.records, codec.Legible (r.toDocument codec))
    (hpagination : codec.Legible b.pagination.toDocument) : codec.Legible (b.toDocument codec) := by
  have hlist : codec.Legible (.list (b.records.map (RecordBody.toDocument codec))) :=
    Codec.legible_list (by rwa [List.length_map]) (List.forall_mem_map.mpr hrecords)
  refine Codec.legible_object (by simp) (by simp; decide) ?_
  simp only [List.forall_mem_cons]
  exact ⟨hlist, hpagination, List.forall_mem_nil _⟩

/-- The texts of a task. -/
def TaskBody.texts (b : TaskBody) : List String := b.taskId :: b.submittedAt :: b.error.toList

theorem TaskBody.legible {b : TaskBody} (hcount : ∀ m ∈ b.recordsProcessed, m < 2 ^ 64)
    (htexts : ∀ s ∈ b.texts, codec.TellsText s) : codec.Legible b.toDocument := by
  obtain ⟨hid, htexts⟩ := List.forall_mem_cons.mp htexts
  obtain ⟨hat, herror⟩ := List.forall_mem_cons.mp htexts
  have hstatus : codec.TellsText b.status.name := fun _ => by cases b.status <;> decide
  have hrecords : ∀ f ∈ (b.recordsProcessed.map fun m => ("recordsProcessed",
      Document.ofNat m)).toList, codec.Legible f.2 := by
    cases hprocessed : b.recordsProcessed with
    | none => exact List.forall_mem_nil _
    | some m => exact List.forall_mem_singleton.mpr (Codec.legible_ofNat (hcount m hprocessed))
  have hreason : ∀ f ∈ (b.error.map fun s => ("error", Document.text s)).toList,
      codec.Legible f.2 := by
    cases hfailed : b.error with
    | none => exact List.forall_mem_nil _
    | some s =>
      rw [hfailed] at herror
      exact List.forall_mem_singleton.mpr
        (Codec.legible_text (List.forall_mem_singleton.mp herror))
  refine Codec.legible_object ?_ ?_ ?_
  · cases b.recordsProcessed <;> cases b.error <;> simp
  · cases b.recordsProcessed <;> cases b.error <;> simp <;> decide
  · simp only [List.forall_mem_append, List.forall_mem_cons]
    exact ⟨⟨⟨Codec.legible_text hid, Codec.legible_text hstatus, Codec.legible_text hat,
      List.forall_mem_nil _⟩, hrecords⟩, hreason⟩

theorem ClusterBody.legible {b : ClusterBody} (hlength : codec.TellsLength b.nodes.length)
    (htexts : ∀ s ∈ b.nodes, codec.TellsText s) : codec.Legible b.toDocument := by
  have hlist : codec.Legible (.list (b.nodes.map .text)) :=
    Codec.legible_list (by rwa [List.length_map])
      (List.forall_mem_map.mpr fun s hs => Codec.legible_text (htexts s hs))
  exact Codec.legible_object (by simp) (by simp; decide) (List.forall_mem_singleton.mpr hlist)

theorem ErrorBody.legible {b : ErrorBody} (hkind : codec.TellsText b.errorKind)
    (hmessage : codec.TellsText b.message) : codec.Legible b.toDocument := by
  refine Codec.legible_object (by simp) (by simp; decide) ?_
  simp only [List.forall_mem_cons]
  exact ⟨Codec.legible_text hkind, Codec.legible_text hmessage, Codec.legible_bool b.inDoubt,
    List.forall_mem_nil _⟩

end RecordService
