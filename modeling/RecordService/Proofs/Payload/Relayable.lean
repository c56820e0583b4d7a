import RecordService.Proofs.Payload.ResponseBody

/-!
# What is read can be sent on

Some values are lost when they are sent: those in which a map spells a tagged value. No value that
has been read is one of them, in whatever bytes it came and whichever part of a body it is.

* `readFields_holds`: what the reader of each field keeps holds of a structure that is read.
* `Bins.ofDocument_relayable`, `Operation.ofDocument_relayable`,
  `OperationsBody.ofDocument_relayable`: the values in bodies.
* `Codec.readValue_relayable`, `Codec.read_bins_relayable`, `Codec.read_operations_relayable`: the
  same of bytes.
* `Value.Relays`, `Value.Relayable.relays`: what is relayable comes out of the bytes that it is sent
  as.
-/

namespace RecordService

variable {codec : Codec} {depth : Nat}

/-! ## Structures -/

section

variable {σ : Type} {names : List String} {fit : Nat → Nat → Document → σ → Except Fault σ}
  {P : σ → Prop}

theorem readEntries_holds (hfit : ∀ i d s s', P s → fit i depth d s = .ok s' → P s')
    {entries : List (Document × Document)} {seen : List Nat} {s s' : σ} (hs : P s)
    (h : readEntries codec names fit depth seen s entries = .ok s') : P s' := by
  induction entries generalizing seen s with
  | nil =>
    cases h
    exact hs
  | cons e rest ih =>
    obtain ⟨k, d⟩ := e
    obtain ⟨place, -, h⟩ := bind_eq_ok_iff.mp h
    cases place with
    | none =>
      obtain ⟨_, -, h⟩ := bind_eq_ok_iff.mp h
      exact ih hs h
    | some i =>
      obtain ⟨-, h⟩ := error_or_eq_ok_iff.mp h
      obtain ⟨s₁, hs₁, h⟩ := bind_eq_ok_iff.mp h
      exact ih (hfit i d s s₁ hs hs₁) h

theorem readItems_holds (hfit : ∀ i d s s', P s → fit i depth d s = .ok s' → P s')
    {count optional i : Nat} {items : List Document} {s s' : σ} (hs : P s)
    (h : readItems codec count optional fit depth i s items = .ok s') : P s' := by
  induction items generalizing i s with
  | nil =>
    rw [readItems] at h
    split at h <;> cases h
    exact hs
  | cons d rest ih =>
    obtain ⟨-, h⟩ := error_or_eq_ok_iff.mp h
    obtain ⟨s₁, hs₁, h⟩ := bind_eq_ok_iff.mp h
    exact ih (hfit i d s s₁ hs hs₁) h

/-- A structure that is read has what the readers of its fields keep. -/
theorem readFields_holds (hfit : ∀ i depth d s s', P s → fit i depth d s = .ok s' → P s')
    {optional : Nat} {start s' : σ} {d : Document} (hs : P start)
    (h : readFields codec names optional fit start depth d = .ok s') : P s' := by
  unfold readFields at h
  split at h
  · obtain ⟨-, h⟩ := error_or_eq_ok_iff.mp h
    exact readEntries_holds (fun i => hfit i _) hs h
  · obtain ⟨_, -, h⟩ := bind_eq_ok_iff.mp h
    exact readItems_holds (fun i => hfit i _) hs h

theorem required_eq_ok_iff {α : Type} {name : String} {x : Option α} {a : α} :
    required name x = .ok a ↔ x = some a := by
  cases x with
  | none => exact iff_of_false nofun nofun
  | some b => exact ⟨fun h => by cases h; rfl, fun h => by cases h; rfl⟩

theorem Document.asList_holds {α : Type} {read : Nat → Document → Except Fault α} {P : α → Prop}
    (hread : ∀ depth d a, read depth d = .ok a → P a) {d : Document} {as : List α}
    (h : d.asList read depth = .ok as) : ∀ a ∈ as, P a := by
  obtain ⟨items, -, h⟩ := bind_eq_ok_iff.mp h
  exact forall_mem_of_mapM (hread _) h

end

/-! ## Bodies -/

/-- The bins that are read are in order, and their values are relayable. -/
theorem Bins.ofDocument_relayable {d : Document} {bins : Bins}
    (h : Bins.ofDocument depth d = .ok bins) :
    Ordered.Sorted bins ∧ ∀ e ∈ bins, e.2.Relayable := by
  cases d with
  | map entries =>
    obtain ⟨-, h⟩ := error_or_eq_ok_iff.mp h
    exact Value.ofFields_relayable (depth - 1) entries List.Pairwise.nil (List.forall_mem_nil _) h
  | _ => cases h

namespace Operation

/-- The values that an operation carries are relayable. -/
def Relayable (op : Operation) : Prop := ∀ v ∈ op.value?, v.Relayable

/-- The value among the operands is relayable. -/
def Operands.Relayable (s : Operands) : Prop := ∀ v ∈ s.value, v.Relayable

variable {kind : Kind} {s s' : Operands}

theorem takeOperand_relayable {i : Nat} {d : Document} (hs : s.Relayable)
    (h : takeOperand kind i depth d s = .ok s') : s'.Relayable := by
  unfold takeOperand at h
  split at h
  · obtain ⟨_, -, rfl⟩ := map_eq_ok_iff.mp h
    exact hs
  · obtain ⟨_, -, rfl⟩ := map_eq_ok_iff.mp h
    exact hs
  · obtain ⟨_, -, rfl⟩ := map_eq_ok_iff.mp h
    exact hs
  · obtain ⟨v, hv, rfl⟩ := map_eq_ok_iff.mp h
    rintro _ ⟨⟩
    exact Value.ofDocument_relayable depth d hv

theorem readOperands_relayable {fields : List (Document × Document)} {seen : List Nat}
    (hs : s.Relayable) (h : readOperands kind depth seen s fields = .ok s') : s'.Relayable := by
  induction fields generalizing seen s with
  | nil =>
    cases h
    exact hs
  | cons f rest ih =>
    obtain ⟨place, -, h⟩ := bind_eq_ok_iff.mp h
    cases place with
    | none => exact ih hs h
    | some i =>
      obtain ⟨-, h⟩ := error_or_eq_ok_iff.mp h
      obtain ⟨s₁, hs₁, h⟩ := bind_eq_ok_iff.mp h
      exact ih (takeOperand_relayable hs hs₁) h

theorem listOperands_relayable {items : List Document} {i : Nat} (hs : s.Relayable)
    (h : listOperands kind depth i s items = .ok s') : s'.Relayable := by
  induction items generalizing i s with
  | nil =>
    rw [listOperands] at h
    split at h <;> cases h
    exact hs
  | cons d rest ih =>
    obtain ⟨-, h⟩ := error_or_eq_ok_iff.mp h
    obtain ⟨s₁, hs₁, h⟩ := bind_eq_ok_iff.mp h
    exact ih (takeOperand_relayable hs hs₁) h

/-- The value of an operation is the one among its operands. -/
theorem build_relayable {op : Operation} (hs : s.Relayable) (h : build kind s = .ok op) :
    op.Relayable := by
  cases kind with
  | touch | get =>
    cases h
    nofun
  | deleteBin | read =>
    obtain ⟨bin, -, h⟩ := bind_eq_ok_iff.mp h
    cases h
    nofun
  | append | prepend =>
    obtain ⟨bin, -, h⟩ := bind_eq_ok_iff.mp h
    obtain ⟨text, -, h⟩ := bind_eq_ok_iff.mp h
    cases h
    nofun
  | put | add =>
    obtain ⟨bin, -, h⟩ := bind_eq_ok_iff.mp h
    obtain ⟨v, hv, h⟩ := bind_eq_ok_iff.mp h
    cases h
    rintro _ ⟨⟩
    exact hs v (required_eq_ok_iff.mp hv)

theorem ofDocument_relayable {d : Document} {op : Operation}
    (h : Operation.ofDocument codec depth d = .ok op) : op.Relayable := by
  have hnone : Operands.Relayable {} := nofun
  unfold ofDocument at h
  split at h
  · obtain ⟨-, h⟩ := error_or_eq_ok_iff.mp h
    obtain ⟨⟨kind, fields⟩, -, h⟩ := bind_eq_ok_iff.mp h
    obtain ⟨kind, -, h⟩ := bind_eq_ok_iff.mp h
    obtain ⟨s, hs, h⟩ := bind_eq_ok_iff.mp h
    exact build_relayable (readOperands_relayable hnone hs) h
  · obtain ⟨-, h⟩ := error_or_eq_ok_iff.mp h
    split at h
    · cases h
    · obtain ⟨kind, -, h⟩ := bind_eq_ok_iff.mp h
      obtain ⟨_, -, h⟩ := bind_eq_ok_iff.mp h
      obtain ⟨s, hs, h⟩ := bind_eq_ok_iff.mp h
      exact build_relayable (listOperands_relayable hnone hs) h
  · cases h

end Operation

theorem OperationsBody.ofDocument_relayable {d : Document} {body : OperationsBody}
    (h : OperationsBody.ofDocument codec depth d = .ok body) :
    ∀ op ∈ body.operations, op.Relayable := by
  obtain ⟨found, hfound, h⟩ := bind_eq_ok_iff.mp h
  obtain ⟨ops, hops, h⟩ := bind_eq_ok_iff.mp h
  cases h
  have hholds : ∀ ops ∈ found, ∀ op ∈ ops, op.Relayable := by
    refine readFields_holds (P := fun found => ∀ ops ∈ found, ∀ op ∈ ops, Operation.Relayable op)
      (fun i depth d s s' _ hfit => ?_) ?_ hfound
    · obtain ⟨ops, hops, rfl⟩ := map_eq_ok_iff.mp hfit
      rintro _ ⟨⟩
      exact Document.asList_holds (fun _ _ _ => Operation.ofDocument_relayable) hops
    · exact fun _ h => nomatch h
  exact hholds ops (required_eq_ok_iff.mp hops)

/-! ## Bytes -/

namespace Codec

variable {b : Bytes}

theorem readValue_relayable {v : Value} (h : codec.readValue b = .ok v) : v.Relayable :=
  Value.ofDocument_relayable _ _ (shape_of_read h)

theorem read_bins_relayable {bins : Bins} (h : codec.read Bins.ofDocument b = .ok bins) :
    ∀ e ∈ bins, e.2.Relayable := (Bins.ofDocument_relayable (shape_of_read h)).2

theorem read_operations_relayable {body : OperationsBody}
    (h : codec.read (OperationsBody.ofDocument codec) b = .ok body) :
    ∀ op ∈ body.operations, op.Relayable :=
  OperationsBody.ofDocument_relayable (shape_of_read h)

end Codec

/-- Whoever reads the bytes of the value has the value, as the format tells it, if it nests no
deeper than readers follow and the format tells all its parts. -/
def Value.Relays (codec : Codec) (v : Value) : Prop :=
  v.nesting codec ≤ codec.nestingLimit → v.Tellable codec →
    codec.readValue (codec.writeValue v) = .ok (v.told codec)

theorem Value.Relayable.relays {v : Value} (h : v.Relayable) (codec : Codec) : v.Relays codec := by
  intro hnesting htells
  refine (Codec.readValue_writeValue (Codec.tree_write (Value.legible_toDocument htells))).mpr ?_
  exact Value.rereads_told h.wellFormed h.untagged hnesting

end RecordService
