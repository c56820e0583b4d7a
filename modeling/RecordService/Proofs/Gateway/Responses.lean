import RecordService.Gateway.Answer
import RecordService.Proofs.Payload.ResponseBody

/-!
# Results and the bodies that tell them

What the gateway returns is sent as a body, and whoever reads the body has what was sent, in either
format. Only the bits of NaNs are lost in JSON.

* `Record.Tellable`: the records that a body can tell: nothing in their bins spells a tagged value
  or nests too deep.
* `RecordBody.read_ofRecord`, `ScanBody.read_ofPage`, `TaskBody.read_ofTask`: the bodies of records,
  pages and tasks are read back.
* `Codec.responses_told`: all bodies are.
-/

namespace RecordService

variable {codec : Codec} {depth : Nat}

/-! ## Keys and digests -/

theorem Key.isLeaf_toValue (k : Key) : k.toValue.IsLeaf := by cases k <;> trivial

theorem Key.nesting_toValue_le (k : Key) : k.toValue.nesting codec ≤ 1 := by
  cases k <;> cases codec <;> simp [toValue, Value.nesting]

theorem Key.sound_toValue (k : Key) {n : Nat} (h : 1 ≤ n) : k.toValue.Sound codec n where
  wellFormed := Value.wellFormed_leaf k.isLeaf_toValue
  untagged := (Value.everywhere_leaf k.isLeaf_toValue).mpr <| by
    rintro ⟨tag, -, body, heq⟩
    have hleaf := k.isLeaf_toValue
    rw [heq] at hleaf
    exact hleaf
  nesting_le := Nat.le_trans k.nesting_toValue_le h

theorem Digest.tellsText (d : Digest) : codec.TellsText (Base64.encode .url false d.bytes) := by
  intro _
  have htext : (Base64.encode .url false d.bytes).toList = Base64.symbols .url d.bytes := by
    simp [Base64.encode]
  have hlength : (Base64.symbols .url d.bytes).length = (4 * digestLength + 2) / 3 := by
    rw [Base64.symbols_eq, List.length_map, Base64.length_sextets, d.length_eq]
  have hle := Bytes.length_utf8_le (Base64.encode .url false d.bytes)
  rw [htext, hlength] at hle
  exact Nat.lt_of_le_of_lt hle (by decide)

/-! ## Records -/

/-- A record that a body can tell in which its values stand at a depth: its maps are in order, no
value in it spells a tagged value or nests deeper than readers follow, and the format tells each of
its values and the lengths of its texts. -/
structure Record.Tellable (codec : Codec) (depth : Nat) (r : Record) : Prop where
  sorted : Ordered.Sorted r.bins
  wellFormed : ∀ e ∈ r.bins, e.2.WellFormed
  untagged : ∀ e ∈ r.bins, ∀ u : Value, u.Within e.2 → ¬u.Lookalike
  nesting_le : ∀ e ∈ r.bins, e.2.nesting codec + depth ≤ codec.nestingLimit
  bins : (Value.map r.bins).Tellable codec
  key : r.address.key.toValue.Tellable codec
  ns : codec.TellsText r.address.ns
  set : ∀ s ∈ r.address.set, codec.TellsText s

namespace Record.Tellable

variable {r : Record}

theorem sound (h : r.Tellable codec depth) :
    ∀ e ∈ r.bins, e.2.Sound codec (codec.nestingLimit - depth) := fun e he =>
  ⟨h.wellFormed e he, h.untagged e he, by have := h.nesting_le e he; omega⟩

theorem legible (h : r.Tellable codec depth) :
    codec.Legible ((RecordBody.ofRecord r).toDocument codec) := by
  refine RecordBody.legible h.bins h.key ?_
  refine List.forall_mem_cons.mpr ⟨h.ns, List.forall_mem_cons.mpr ⟨r.digest.tellsText, ?_⟩⟩
  exact fun s hs => h.set s (Option.mem_toList.mp hs)

end Record.Tellable

theorem RecordBody.read_ofRecord {r : Record} (h : r.Tellable codec 2) :
    codec.read (RecordBody.ofDocument codec)
        (codec.write ((RecordBody.ofRecord r).toDocument codec)) =
      .ok ((RecordBody.ofRecord r).told codec) := by
  have hlimit : codec.nestingLimit = codec.nestingLimit - 2 + 2 := by cases codec <;> rfl
  have hkey : r.address.key.toValue.Sound codec (codec.nestingLimit - 2) :=
    r.address.key.sound_toValue (by cases codec <;> decide)
  refine Codec.read_legible h.legible ?_
  rw [hlimit]
  exact RecordBody.ofDocument_toDocument h.sorted h.sound hkey

/-! ## Pages and tasks -/

theorem ScanBody.read_ofPage {p : ScanPage} (h : ∀ r ∈ p.records, r.Tellable codec 4)
    (hresume : ∀ s ∈ p.resume, codec.TellsText s) (hlength : codec.TellsLength p.records.length)
    (hcount : p.records.length < 2 ^ 64) :
    codec.read (ScanBody.ofDocument codec)
        (codec.write ((ScanBody.ofPage p).toDocument codec)) =
      .ok ((ScanBody.ofPage p).told codec) := by
  have hlimit : codec.nestingLimit = codec.nestingLimit - 4 + 4 := by cases codec <;> rfl
  have hkey : ∀ r : Record, r.address.key.toValue.Sound codec (codec.nestingLimit - 4) :=
    fun r => r.address.key.sound_toValue (by cases codec <;> decide)
  have hlegible : codec.Legible ((ScanBody.ofPage p).toDocument codec) := by
    refine ScanBody.legible ?_ ?_ (PaginationBody.legible hresume hcount)
    · exact (List.length_map ..).symm ▸ hlength
    · exact List.forall_mem_map.mpr fun r hr => (h r hr).legible
  refine Codec.read_legible hlegible ?_
  rw [hlimit]
  refine ScanBody.ofDocument_toDocument ?_ ?_ ?_ hcount
  · exact List.forall_mem_map.mpr fun r hr => (h r hr).sorted
  · exact List.forall_mem_map.mpr fun r hr => (h r hr).sound
  · exact List.forall_mem_map.mpr fun r _ => hkey r

theorem TaskBody.read_ofTask {t : Task} (hcount : ∀ m ∈ t.state.records, m < 2 ^ 64)
    (htexts : ∀ s ∈ (TaskBody.ofTask t).texts, codec.TellsText s) :
    codec.read (TaskBody.ofDocument codec) (codec.write (TaskBody.ofTask t).toDocument) =
      .ok (TaskBody.ofTask t) := by
  have hlimit : codec.nestingLimit = codec.nestingLimit - 1 + 1 := by cases codec <;> rfl
  refine Codec.read_legible (TaskBody.legible hcount htexts) ?_
  rw [hlimit]
  exact TaskBody.ofDocument_toDocument hcount

/-! ## All bodies -/

/-- Every body is read back as what was sent, in either format: those of records and pages that nest
no deeper than readers follow and in whose bins nothing spells a tagged value, up to the bits of
NaNs, whatever the bins themselves spell; those of tasks, in which what is not known stays so; and
those of errors and of clusters. Their lengths have to be ones that the format can tell, and counts
take 64 bits. -/
theorem Codec.responses_told (codec : Codec) :
    (∀ r : Record, r.Tellable codec 2 →
      codec.read (RecordBody.ofDocument codec)
          (codec.write ((RecordBody.ofRecord r).toDocument codec)) =
        .ok ((RecordBody.ofRecord r).told codec)) ∧
      (∀ p : ScanPage, (∀ r ∈ p.records, r.Tellable codec 4) →
        (∀ s ∈ p.resume, codec.TellsText s) → codec.TellsLength p.records.length →
        p.records.length < 2 ^ 64 →
          codec.read (ScanBody.ofDocument codec)
              (codec.write ((ScanBody.ofPage p).toDocument codec)) =
            .ok ((ScanBody.ofPage p).told codec)) ∧
      (∀ t : Task, (∀ m ∈ t.state.records, m < 2 ^ 64) →
        (∀ s ∈ (TaskBody.ofTask t).texts, codec.TellsText s) →
          codec.read (TaskBody.ofDocument codec) (codec.write (TaskBody.ofTask t).toDocument) =
            .ok (TaskBody.ofTask t)) ∧
      (∀ b : ErrorBody, codec.TellsText b.errorKind → codec.TellsText b.message →
        codec.read (ErrorBody.ofDocument codec) (codec.write b.toDocument) = .ok b) ∧
      ∀ b : ClusterBody, codec.TellsLength b.nodes.length → (∀ s ∈ b.nodes, codec.TellsText s) →
        codec.read (ClusterBody.ofDocument codec) (codec.write b.toDocument) = .ok b := by
  have hlimit : codec.nestingLimit = codec.nestingLimit - 2 + 2 := by cases codec <;> rfl
  refine ⟨fun _ => RecordBody.read_ofRecord, fun _ => ScanBody.read_ofPage,
    fun _ => TaskBody.read_ofTask, fun b hkind hmessage => ?_, fun b hlength htexts => ?_⟩
  · refine Codec.read_legible (ErrorBody.legible hkind hmessage) ?_
    rw [hlimit]
    rfl
  · refine Codec.read_legible (ClusterBody.legible hlength htexts) ?_
    rw [hlimit]
    exact ClusterBody.ofDocument_toDocument b

/-! ### Bins that spell a tagged value -/

/-- A record whose bins would be a byte sequence if they were a value. -/
def taggedBins : Record :=
  ⟨⟨"test", none, .bytes [0xFF]⟩, ⟨List.replicate 20 0, rfl⟩, [("$bytes", .string "AA==")], 1, none⟩

theorem taggedBins_tellable (codec : Codec) (h : depth ≤ 4) : taggedBins.Tellable codec depth where
  sorted := List.pairwise_singleton _ _
  wellFormed := List.forall_mem_singleton.mpr (Value.wellFormed_leaf trivial)
  untagged := by
    have hleaf : (Value.string "AA==").IsLeaf := trivial
    refine List.forall_mem_singleton.mpr ((Value.everywhere_leaf hleaf).mpr ?_)
    rintro ⟨tag, -, body, heq⟩
    cases heq
  nesting_le := List.forall_mem_singleton.mpr <| by
    cases codec <;> exact Nat.le_trans (Nat.add_le_add_left h 0) (by decide)
  bins := by
    cases codec with
    | json =>
      intro x hx
      cases hx with
      | entry he hx =>
        cases List.mem_singleton.mp he
        cases hx
    | messagePack =>
      refine Value.everywhere_map.mpr ⟨⟨by decide, List.forall_mem_singleton.mpr (by decide)⟩, ?_⟩
      exact List.forall_mem_singleton.mpr
        ((Value.everywhere_leaf (v := .string "AA==") trivial).mpr (by decide : 4 < 2 ^ 32))
  key := by
    cases codec with
    | json => exact fun x hx => nomatch hx
    | messagePack =>
      exact (Value.everywhere_leaf (v := .blob [0xFF]) trivial).mpr (by decide : 1 < 2 ^ 32)
  ns := fun _ => by decide
  set := nofun

/-- A task that runs. -/
def runningTask : Task := ⟨⟨1⟩, 1, "test", none, 0, .running⟩

theorem Codec.responses_told_taggedBins :
    taggedBins.Tellable .json 2 ∧ taggedBins.Tellable .messagePack 4 ∧
      json.read (RecordBody.ofDocument .json)
          (json.write ((RecordBody.ofRecord taggedBins).toDocument .json)) =
        .ok (RecordBody.ofRecord taggedBins) ∧
      messagePack.read (ScanBody.ofDocument .messagePack)
          (messagePack.write
            ((ScanBody.ofPage ⟨[taggedBins], some "AA"⟩).toDocument .messagePack)) =
        .ok (ScanBody.ofPage ⟨[taggedBins], some "AA"⟩) ∧
      json.read (TaskBody.ofDocument .json) (json.write (TaskBody.ofTask runningTask).toDocument) =
        .ok (TaskBody.ofTask runningTask) ∧
      json.read (ErrorBody.ofDocument .json)
          (json.write GatewayError.recordNotFound.body.toDocument) =
        .ok GatewayError.recordNotFound.body ∧
      messagePack.read (ClusterBody.ofDocument .messagePack)
          (messagePack.write (ClusterBody.mk ["node-1"]).toDocument) =
        .ok ⟨["node-1"]⟩ := by
  obtain ⟨hrecord, -, htask, herror, -⟩ := responses_told .json
  obtain ⟨-, hpage, -, -, hcluster⟩ := responses_told .messagePack
  have hjson : taggedBins.Tellable .json 2 := taggedBins_tellable .json (by decide)
  have hpacked : taggedBins.Tellable .messagePack 4 := taggedBins_tellable .messagePack (by decide)
  refine ⟨hjson, hpacked, hrecord taggedBins hjson,
    hpage ⟨[taggedBins], some "AA"⟩ (List.forall_mem_singleton.mpr hpacked) ?_ ?_ ?_,
    htask runningTask nofun fun _ _ => nofun, herror _ nofun nofun,
    hcluster ⟨["node-1"]⟩ ?_ (List.forall_mem_singleton.mpr ?_)⟩
  · rintro _ ⟨⟩ _
    decide
  · exact fun _ => by decide
  · decide
  · exact fun _ => by decide
  · exact fun _ => by decide

end RecordService
