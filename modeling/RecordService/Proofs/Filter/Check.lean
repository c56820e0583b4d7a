import RecordService.Filter.Check
import RecordService.Proofs.Except

/-!
# Which expressions are filters

The checker walks an expression and stops at the first thing that is wrong with it. Here is said
what is right, of every node on its own.

* `Expression.Node`: which nodes an expression has, and how far each lies below its root.
* `Expression.Throughout`: what holds of every node at its depth, and the rules for it, one for
  each form of expression.
* `Expression.IsFilter`: the root is a predicate, no node lies too deep, and each has the operands
  or the bin name that it needs.
* `Expression.check_eq_ok_iff`: the checker accepts the filters and nothing else.
-/

namespace RecordService.Expression

/-! ## Nodes -/

/-- An expression is a node of another one, so many levels below it. -/
inductive Node : Nat → Expression → Expression → Prop
  | root (e : Expression) : Node 0 e e
  | left {n : Nat} {op : Comparison} {l r f : Expression} (h : Node n l f) :
    Node (n + 1) (compare op l r) f
  | right {n : Nat} {op : Comparison} {l r f : Expression} (h : Node n r f) :
    Node (n + 1) (compare op l r) f
  | conjunct {n : Nat} {operands : List Expression} {e f : Expression} (he : e ∈ operands)
    (h : Node n e f) : Node (n + 1) (and operands) f
  | disjunct {n : Nat} {operands : List Expression} {e f : Expression} (he : e ∈ operands)
    (h : Node n e f) : Node (n + 1) (or operands) f
  | negated {n : Nat} {e f : Expression} (h : Node n e f) : Node (n + 1) (not e) f

/-- Induction over expressions. -/
@[elab_as_elim]
theorem induct {motive : Expression → Prop}
    (compare : ∀ op left right, motive left → motive right → motive (.compare op left right))
    (and : ∀ operands, (∀ e ∈ operands, motive e) → motive (.and operands))
    (or : ∀ operands, (∀ e ∈ operands, motive e) → motive (.or operands))
    (not : ∀ operand, motive operand → motive (.not operand))
    (bin : ∀ name kind, motive (.bin name kind)) (binExists : ∀ name, motive (.binExists name))
    (generation : motive .generation) (literal : ∀ v, motive (.literal v)) (e : Expression) :
    motive e :=
  @Expression.rec motive (fun operands => ∀ e ∈ operands, motive e) compare and or not bin
    binExists generation literal (List.forall_mem_nil _)
    (fun _ _ he hrest => List.forall_mem_cons.mpr ⟨he, hrest⟩) e

/-- A predicate holds of every node of an expression that itself lies at a depth. -/
def Throughout (P : Nat → Expression → Prop) (depth : Nat) (e : Expression) : Prop :=
  ∀ n f, Node n e f → P (depth + n) f

section Rules

variable {P : Nat → Expression → Prop} {depth : Nat} {op : Comparison} {e left right : Expression}
  {operands : List Expression}

theorem Throughout.root (h : Throughout P depth e) : P depth e := h 0 e (.root e)

/-- What holds of an expression and of all nodes of its parts holds of all its nodes. -/
theorem Throughout.of_parts (hroot : P depth e)
    (hparts : ∀ n f, Node (n + 1) e f → P (depth + 1 + n) f) : Throughout P depth e := by
  intro n f hnode
  cases n with
  | zero => cases hnode; exact hroot
  | succ n => exact Nat.add_right_comm depth 1 n ▸ hparts n f hnode

theorem Throughout.parts (h : Throughout P depth e) {n : Nat} {f : Expression}
    (hnode : Node (n + 1) e f) : P (depth + 1 + n) f :=
  Nat.add_right_comm depth n 1 ▸ h (n + 1) f hnode

theorem throughout_compare :
    Throughout P depth (compare op left right) ↔ P depth (compare op left right) ∧
      Throughout P (depth + 1) left ∧ Throughout P (depth + 1) right := by
  constructor
  · exact fun h => ⟨h.root, fun _ _ hf => h.parts (.left hf), fun _ _ hf => h.parts (.right hf)⟩
  · rintro ⟨hroot, hleft, hright⟩
    refine .of_parts hroot fun n f hnode => ?_
    cases hnode with
    | left hf => exact hleft n f hf
    | right hf => exact hright n f hf

theorem throughout_and :
    Throughout P depth (and operands) ↔
      P depth (and operands) ∧ ∀ e ∈ operands, Throughout P (depth + 1) e := by
  constructor
  · exact fun h => ⟨h.root, fun _ he _ _ hf => h.parts (.conjunct he hf)⟩
  · rintro ⟨hroot, hoperands⟩
    refine .of_parts hroot fun n f hnode => ?_
    cases hnode with
    | conjunct he hf => exact hoperands _ he n f hf

theorem throughout_or :
    Throughout P depth (or operands) ↔
      P depth (or operands) ∧ ∀ e ∈ operands, Throughout P (depth + 1) e := by
  constructor
  · exact fun h => ⟨h.root, fun _ he _ _ hf => h.parts (.disjunct he hf)⟩
  · rintro ⟨hroot, hoperands⟩
    refine .of_parts hroot fun n f hnode => ?_
    cases hnode with
    | disjunct he hf => exact hoperands _ he n f hf

theorem throughout_not :
    Throughout P depth (not e) ↔ P depth (not e) ∧ Throughout P (depth + 1) e := by
  constructor
  · exact fun h => ⟨h.root, fun _ _ hf => h.parts (.negated hf)⟩
  · rintro ⟨hroot, he⟩
    refine .of_parts hroot fun n f hnode => ?_
    cases hnode with
    | negated hf => exact he n f hf

/-- An expression that has no nodes but itself. -/
def IsLeaf : Expression → Prop
  | bin .. | binExists _ | generation | literal _ => True
  | _ => False

theorem throughout_leaf (he : e.IsLeaf) : Throughout P depth e ↔ P depth e := by
  refine ⟨Throughout.root, fun h => .of_parts h fun n f hnode => ?_⟩
  cases hnode <;> exact he.elim

theorem Throughout.of_leaf (he : e.IsLeaf) (h : P depth e) : Throughout P depth e :=
  (throughout_leaf he).mpr h

end Rules

/-! ## Filters -/

/-- What is true or false of a record, or would be if its bins were of the kinds asked for. -/
inductive Predicate : Expression → Prop
  | compare (op : Comparison) (left right : Expression) : Predicate (compare op left right)
  | and (operands : List Expression) : Predicate (and operands)
  | or (operands : List Expression) : Predicate (or operands)
  | not (operand : Expression) : Predicate (not operand)
  | binExists (name : String) : Predicate (binExists name)
  | bin (name : String) : Predicate (bin name .bool)
  | literal (b : Bool) : Predicate (literal (.bool b))

/-- What may be compared. -/
inductive Operand : Expression → Prop
  | bin (name : String) (kind : BinKind) : Operand (bin name kind)
  | literal (v : Value) : Operand (literal v)
  | generation : Operand generation

/-- A node has the operands that its form asks for, or a bin name that is not empty. -/
def Sound : Expression → Prop
  | compare _ left right => left.Operand ∧ right.Operand
  | and operands | or operands => operands ≠ [] ∧ ∀ e ∈ operands, e.Predicate
  | not operand => operand.Predicate
  | bin name _ | binExists name => name ≠ ""
  | generation | literal _ => True

/-- An expression that makes sense as a filter. -/
structure IsFilter (e : Expression) : Prop where
  /-- It is true or false of a record. -/
  root : e.Predicate
  /-- So are its operands, where they have to be, and the others can be compared. -/
  sound : ∀ n f, Node n e f → f.Sound
  /-- No node lies too deep. -/
  shallow : ∀ n f, Node n e f → n ≤ 64

/-! ## The checker -/

variable {e : Expression} {depth : Nat}

theorem isPredicate_iff : e.isPredicate = true ↔ e.Predicate := by
  constructor
  · intro h
    cases e with
    | bin name kind => cases kind <;> first | exact .bin name | cases h
    | literal v => cases v <;> first | exact .literal _ | cases h
    | compare => exact .compare ..
    | and => exact .and _
    | or => exact .or _
    | not => exact .not _
    | binExists => exact .binExists _
    | generation => cases h
  · intro h
    cases h <;> rfl

theorem isOperand_iff : e.isOperand = true ↔ e.Operand := by
  constructor
  · intro h
    cases e with
    | bin => exact .bin ..
    | literal => exact .literal _
    | generation => exact .generation
    | _ => cases h
  · intro h
    cases h <;> rfl

/-- Operands are accepted if each is a predicate and is accepted. -/
theorem checkItems_eq_ok_iff {operands : List Expression} :
    checkItems depth operands = .ok () ↔
      ∀ e ∈ operands, e.Predicate ∧ checkAt depth e = .ok () := by
  induction operands with
  | nil => exact iff_of_true rfl (List.forall_mem_nil _)
  | cons e rest ih =>
    rw [checkItems, error_or_eq_ok_iff, then_eq_ok_iff, ih, List.forall_mem_cons, ← isPredicate_iff]
    simp [and_assoc]

/-- What the checker finds at a depth: a node that is sound and lies not too deep. -/
def Accepted (depth : Nat) (e : Expression) : Prop := depth ≤ maxDepth ∧ e.Sound

/-- Conjunctions and disjunctions are accepted alike. -/
theorem checkAt_operands_eq_ok_iff {operands : List Expression}
    (ih : ∀ e ∈ operands, ∀ {depth}, checkAt depth e = .ok () ↔ Throughout Accepted depth e) :
    (if maxDepth < depth then .error .tooDeep
      else if operands.isEmpty then .error .noOperand
      else checkItems (depth + 1) operands) = .ok () ↔
      (depth ≤ maxDepth ∧ operands ≠ [] ∧ ∀ e ∈ operands, e.Predicate) ∧
        ∀ e ∈ operands, Throughout Accepted (depth + 1) e := by
  have hitems : checkItems (depth + 1) operands = .ok () ↔
      (∀ e ∈ operands, e.Predicate) ∧ ∀ e ∈ operands, Throughout Accepted (depth + 1) e := by
    rw [checkItems_eq_ok_iff]
    constructor
    · exact fun h => ⟨fun e he => (h e he).1, fun e he => (ih e he).mp (h e he).2⟩
    · exact fun h e he => ⟨h.1 e he, (ih e he).mpr (h.2 e he)⟩
  rw [error_or_eq_ok_iff, error_or_eq_ok_iff, hitems]
  simp [and_assoc]

/-- An expression is accepted at a depth if every node is sound and none lies too deep. -/
theorem checkAt_eq_ok_iff : checkAt depth e = .ok () ↔ Throughout Accepted depth e := by
  induction e using induct generalizing depth with
  | compare op left right ihl ihr =>
    rw [checkAt, throughout_compare, error_or_eq_ok_iff, error_or_eq_ok_iff, then_eq_ok_iff, ihl,
      ihr]
    simp [Accepted, Sound, isOperand_iff, and_assoc]
  | and operands ih =>
    rw [checkAt, throughout_and, checkAt_operands_eq_ok_iff fun e he => ih e he]
    rfl
  | or operands ih =>
    rw [checkAt, throughout_or, checkAt_operands_eq_ok_iff fun e he => ih e he]
    rfl
  | not operand ih =>
    rw [checkAt, throughout_not, error_or_eq_ok_iff, error_or_eq_ok_iff, ih]
    simp [Accepted, Sound, isPredicate_iff, and_assoc]
  | bin name kind =>
    rw [checkAt, throughout_leaf (by trivial), error_or_eq_ok_iff, error_or_eq_ok_iff]
    simp [Accepted, Sound]
  | binExists name =>
    rw [checkAt, throughout_leaf (by trivial), error_or_eq_ok_iff, error_or_eq_ok_iff]
    simp [Accepted, Sound]
  | generation =>
    rw [checkAt, throughout_leaf (by trivial), error_or_eq_ok_iff]
    simp [Accepted, Sound]
  | literal v =>
    rw [checkAt, throughout_leaf (by trivial), error_or_eq_ok_iff]
    simp [Accepted, Sound]

/-- The checker accepts the filters and nothing else. -/
theorem check_eq_ok_iff : e.check = .ok () ↔ e.IsFilter := by
  have hroot : (if e.isPredicate then .ok () else .error .badRoot : Except FilterFault Unit) =
      .ok () ↔ e.Predicate := by
    rw [← isPredicate_iff]
    cases e.isPredicate <;> simp
  rw [check, then_eq_ok_iff, hroot, checkAt_eq_ok_iff]
  constructor
  · rintro ⟨hnodes, hroot⟩
    exact ⟨hroot, fun n f hf => (hnodes n f hf).2, fun n f hf => Nat.zero_add n ▸ (hnodes n f hf).1⟩
  · rintro ⟨hroot, hsound, hshallow⟩
    exact ⟨fun n f hf => ⟨(Nat.zero_add n).symm ▸ hshallow n f hf, hsound n f hf⟩, hroot⟩

end RecordService.Expression
