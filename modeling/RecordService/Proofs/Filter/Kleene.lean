import Mathlib.Order.BoundedOrder.Lattice
import Mathlib.Order.MinMax
import RecordService.Filter.Expression

/-!
# Filters in Kleene logic

An evaluation that stops early, and keeps in mind whether anything before was unknown, comes to what
the strong logic of Kleene says. There is an order of three truth values, false below unknown below
true; a conjunction is the least of its operands, a disjunction the greatest.

* `Truth`: the truth values in their order. An outcome that is no truth value counts as unknown.
* `Connective`: conjunction and disjunction under one name, so that each law is stated once.
* `Expression.eval_join`: a connective evaluates to the least or the greatest of its operands.
* `Expression.Rewrites`: operands are reordered, repeated or regrouped and negations pushed through
  connectives, anywhere in an expression.
* `Expression.Rewrites.eval_eq`: that does not change what the expression evaluates to.
-/

namespace RecordService

/-! ## Truth values -/

/-- The truth values. -/
inductive Truth
  | no | unknown | yes
  deriving DecidableEq, Repr

namespace Truth

/-- The place of a truth value among the three. -/
def rank : Truth → Nat
  | no => 0
  | unknown => 1
  | yes => 2

theorem rank_injective : Function.Injective rank := by
  intro a b
  cases a <;> cases b <;> decide

instance : LinearOrder Truth := LinearOrder.lift' rank rank_injective

instance : BoundedOrder Truth where
  top := yes
  bot := no
  le_top t := by cases t <;> decide
  bot_le t := by cases t <;> decide

/-- The opposite truth value; unknown is its own. -/
def opposite : Truth → Truth
  | no => yes
  | unknown => unknown
  | yes => no

theorem opposite_opposite (t : Truth) : t.opposite.opposite = t := by cases t <;> rfl

theorem opposite_le_opposite_iff {s t : Truth} : s.opposite ≤ t.opposite ↔ t ≤ s := by
  cases s <;> cases t <;> decide

/-- The least of truth values; true if there are none. -/
def least (ts : List Truth) : Truth := ts.foldr min ⊤

/-- The greatest of truth values; false if there are none. -/
def greatest (ts : List Truth) : Truth := ts.foldr max ⊥

theorem le_least_iff {t : Truth} {ts : List Truth} : t ≤ least ts ↔ ∀ u ∈ ts, t ≤ u := by
  induction ts with
  | nil => exact iff_of_true le_top (List.forall_mem_nil _)
  | cons u rest ih => rw [least, List.foldr_cons, le_min_iff, List.forall_mem_cons, ← ih, least]

theorem greatest_le_iff {t : Truth} {ts : List Truth} : greatest ts ≤ t ↔ ∀ u ∈ ts, u ≤ t := by
  induction ts with
  | nil => exact iff_of_true bot_le (List.forall_mem_nil _)
  | cons u rest ih =>
    rw [greatest, List.foldr_cons, max_le_iff, List.forall_mem_cons, ← ih, greatest]

/-- The outcome that a truth value is. -/
def outcome : Truth → Outcome
  | no => .bool false
  | unknown => .unknown
  | yes => .bool true

end Truth

/-- The truth value of an outcome. One that is no truth value counts as unknown. -/
def Outcome.truth : Outcome → Truth
  | .bool false => .no
  | .bool true => .yes
  | _ => .unknown

theorem Truth.truth_outcome (t : Truth) : t.outcome.truth = t := by cases t <;> rfl

/-! ## Connectives -/

/-- The two ways to join operands. -/
inductive Connective
  | all | any
  deriving DecidableEq, Repr

namespace Connective

/-- The expression that joins operands. -/
def join : Connective → List Expression → Expression
  | all => .and
  | any => .or

/-- The truth value of joined operands. -/
def fold : Connective → List Truth → Truth
  | all => Truth.least
  | any => Truth.greatest

/-- The other connective. -/
def dual : Connective → Connective
  | all => any
  | any => all

variable {c : Connective} {ts us : List Truth}

/-- Only which operands there are counts, not their order nor how often they stand there. -/
theorem fold_congr (h : ∀ t, t ∈ ts ↔ t ∈ us) : c.fold ts = c.fold us := by
  cases c with
  | all => exact eq_of_forall_le_iff fun t => by simp only [fold, Truth.le_least_iff, h]
  | any => exact eq_of_forall_ge_iff fun t => by simp only [fold, Truth.greatest_le_iff, h]

/-- Operands may be joined among themselves first. -/
theorem fold_fold (front inner back : List Truth) :
    c.fold (front ++ c.fold inner :: back) = c.fold (front ++ inner ++ back) := by
  cases c with
  | all =>
    refine eq_of_forall_le_iff fun t => ?_
    simp only [fold, Truth.le_least_iff, List.forall_mem_append, List.forall_mem_cons, and_assoc]
  | any =>
    refine eq_of_forall_ge_iff fun t => ?_
    simp only [fold, Truth.greatest_le_iff, List.forall_mem_append, List.forall_mem_cons, and_assoc]

/-- The opposite of joined operands joins their opposites the other way. -/
theorem opposite_fold (ts : List Truth) :
    (c.fold ts).opposite = c.dual.fold (ts.map Truth.opposite) := by
  -- A bound on one side is the opposite bound on the other.
  have hturn : ∀ s t : Truth, s.opposite ≤ t ↔ t.opposite ≤ s := fun s t => by
    rw [← Truth.opposite_le_opposite_iff, Truth.opposite_opposite]
  have hturn' : ∀ s t : Truth, s ≤ t.opposite ↔ t ≤ s.opposite := fun s t => by
    rw [← Truth.opposite_le_opposite_iff, Truth.opposite_opposite]
  cases c with
  | all =>
    refine eq_of_forall_ge_iff fun t => ?_
    simp only [fold, dual, hturn, Truth.le_least_iff, Truth.greatest_le_iff, List.forall_mem_map]
  | any =>
    refine eq_of_forall_le_iff fun t => ?_
    simp only [fold, dual, hturn', Truth.le_least_iff, Truth.greatest_le_iff, List.forall_mem_map]

end Connective

namespace Expression

variable {bins : Bins} {gen : UInt32}

/-! ## Evaluation -/

/-- The truth value of an expression for a record. -/
def truth (bins : Bins) (gen : UInt32) (e : Expression) : Truth := (e.eval bins gen).truth

/-- Passing an operand that is neither true nor false leaves unknown as the most that may come of a
conjunction. -/
theorem evalAll_eq (pending : Bool) (operands : List Expression) :
    evalAll bins gen pending operands =
      (min (if pending then .unknown else .yes)
        (Truth.least (operands.map (truth bins gen)))).outcome := by
  induction operands generalizing pending with
  | nil => cases pending <;> rfl
  | cons e rest ih =>
    have hcons : Truth.least ((e :: rest).map (truth bins gen)) =
        min (e.eval bins gen).truth (Truth.least (rest.map (truth bins gen))) := rfl
    rw [evalAll, hcons]
    generalize Truth.least (rest.map (truth bins gen)) = t at ih
    cases e.eval bins gen with
    | bool b =>
      cases b with
      | false => cases pending <;> cases t <;> rfl
      | true => exact (ih pending).trans (by cases t <;> rfl)
    | value v => exact (ih true).trans (by cases pending <;> cases t <;> rfl)
    | unknown => exact (ih true).trans (by cases pending <;> cases t <;> rfl)

/-- Passing an operand that is neither true nor false leaves unknown as the least that may come of a
disjunction. -/
theorem evalAny_eq (pending : Bool) (operands : List Expression) :
    evalAny bins gen pending operands =
      (max (if pending then .unknown else .no)
        (Truth.greatest (operands.map (truth bins gen)))).outcome := by
  induction operands generalizing pending with
  | nil => cases pending <;> rfl
  | cons e rest ih =>
    have hcons : Truth.greatest ((e :: rest).map (truth bins gen)) =
        max (e.eval bins gen).truth (Truth.greatest (rest.map (truth bins gen))) := rfl
    rw [evalAny, hcons]
    generalize Truth.greatest (rest.map (truth bins gen)) = t at ih
    cases e.eval bins gen with
    | bool b =>
      cases b with
      | false => exact (ih pending).trans (by cases t <;> rfl)
      | true => cases pending <;> cases t <;> rfl
    | value v => exact (ih true).trans (by cases pending <;> cases t <;> rfl)
    | unknown => exact (ih true).trans (by cases pending <;> cases t <;> rfl)

/-- A connective evaluates to the least or the greatest of its operands. -/
theorem eval_join (c : Connective) (operands : List Expression) :
    (c.join operands).eval bins gen = (c.fold (operands.map (truth bins gen))).outcome := by
  cases c with
  | all =>
    rw [Connective.join, eval, evalAll_eq, if_neg Bool.false_ne_true]
    exact congrArg Truth.outcome (min_eq_right le_top)
  | any =>
    rw [Connective.join, eval, evalAny_eq, if_neg Bool.false_ne_true]
    exact congrArg Truth.outcome (max_eq_right bot_le)

theorem truth_join (c : Connective) (operands : List Expression) :
    (c.join operands).truth bins gen = c.fold (operands.map (truth bins gen)) := by
  rw [truth, eval_join, Truth.truth_outcome]

theorem eval_not (e : Expression) :
    (not e).eval bins gen = (e.truth bins gen).opposite.outcome := by
  rw [eval, truth]
  cases e.eval bins gen with
  | bool b => cases b <;> rfl
  | value v => rfl
  | unknown => rfl

theorem truth_not (e : Expression) : (not e).truth bins gen = (e.truth bins gen).opposite := by
  rw [truth, eval_not, Truth.truth_outcome]

theorem map_truth_not (operands : List Expression) :
    (operands.map not).map (truth bins gen) =
      (operands.map (truth bins gen)).map Truth.opposite := by
  rw [List.map_map, List.map_map]
  exact List.map_congr_left fun e _ => truth_not e

/-! ## Rewriting -/

/-- An expression becomes another one by steps, each at any place in it, that reorder, repeat or
regroup the operands of a connective or push a negation through it. Each step may be taken back. -/
inductive Rewrites : Expression → Expression → Prop
  | refl (e : Expression) : Rewrites e e
  | symm {e f : Expression} (h : Rewrites e f) : Rewrites f e
  | trans {e f g : Expression} (h : Rewrites e f) (h' : Rewrites f g) : Rewrites e g
  | compare {l l' r r' : Expression} (op : Comparison) (hl : Rewrites l l') (hr : Rewrites r r') :
    Rewrites (compare op l r) (compare op l' r')
  | not {e f : Expression} (h : Rewrites e f) : Rewrites (not e) (not f)
  | operand {e f : Expression} (c : Connective) (front back : List Expression) (h : Rewrites e f) :
    Rewrites (c.join (front ++ e :: back)) (c.join (front ++ f :: back))
  | reorder {es fs : List Expression} (c : Connective) (h : es.Perm fs) :
    Rewrites (c.join es) (c.join fs)
  | duplicate {e : Expression} {es : List Expression} (c : Connective) (h : e ∈ es) :
    Rewrites (c.join es) (c.join (e :: es))
  | regroup (c : Connective) (front inner back : List Expression) :
    Rewrites (c.join (front ++ inner ++ back)) (c.join (front ++ c.join inner :: back))
  /-- The negation of what is joined joins the negations the other way. -/
  | negateJoined (c : Connective) (es : List Expression) :
    Rewrites (.not (c.join es)) (c.dual.join (es.map .not))
  /-- What is joined is the negation of the negations, joined the other way. -/
  | joinNegated (c : Connective) (es : List Expression) :
    Rewrites (c.join es) (.not (c.dual.join (es.map .not)))

/-- A connective does not tell apart operands that it folds alike. -/
theorem eval_join_congr {c : Connective} {es fs : List Expression}
    (h : c.fold (es.map (truth bins gen)) = c.fold (fs.map (truth bins gen))) :
    (c.join es).eval bins gen = (c.join fs).eval bins gen := by
  rw [eval_join, eval_join, h]

/-- Rewriting does not change what an expression evaluates to. -/
theorem Rewrites.eval_eq {e f : Expression} (h : Rewrites e f) :
    e.eval bins gen = f.eval bins gen := by
  induction h with
  | refl e => rfl
  | symm _ ih => exact ih.symm
  | trans _ _ ih ih' => exact ih.trans ih'
  | compare op _ _ ihl ihr => rw [eval, eval, ihl, ihr]
  | not _ ih => rw [eval, eval, ih]
  | operand c front back _ ih =>
    refine eval_join_congr ?_
    rw [List.map_append, List.map_append, List.map_cons, List.map_cons, truth, ih, truth]
  | reorder c h => exact eval_join_congr (c.fold_congr fun t => (h.map _).mem_iff)
  | @duplicate e es c h =>
    refine eval_join_congr (Connective.fold_congr fun t => ?_)
    rw [List.map_cons, List.mem_cons]
    refine (or_iff_right_of_imp ?_).symm
    rintro rfl
    exact List.mem_map_of_mem h
  | regroup c front inner back =>
    refine eval_join_congr ?_
    rw [List.map_append, List.map_append, List.map_append, List.map_cons, truth_join,
      Connective.fold_fold]
  | negateJoined c es =>
    rw [eval_not, truth_join, eval_join, map_truth_not, Connective.opposite_fold]
  | joinNegated c es =>
    rw [eval_not, truth_join, eval_join, map_truth_not, ← Connective.opposite_fold,
      Truth.opposite_opposite]

/-- A conjunction comes to the least of its operands, a disjunction to the greatest and a negation
to the opposite, where what is no truth value counts as unknown; so whether an expression is true of
a record does not change when it is rewritten. -/
theorem evaluates_kleene (bins : Bins) (gen : UInt32) :
    (∀ es : List Expression, (and es).eval bins gen =
        (Truth.least (es.map fun e => (e.eval bins gen).truth)).outcome) ∧
      (∀ es : List Expression, (or es).eval bins gen =
        (Truth.greatest (es.map fun e => (e.eval bins gen).truth)).outcome) ∧
      (∀ e : Expression, (not e).eval bins gen = (e.eval bins gen).truth.opposite.outcome) ∧
      ∀ e f : Expression, Rewrites e f → e.selects bins gen = f.selects bins gen := by
  refine ⟨eval_join .all, eval_join .any, eval_not, fun e f h => ?_⟩
  rw [selects, selects, h.eval_eq]

/-! ### A negated conjunction -/

/-- Unknown of a record without the bin `n`. -/
def undecided : Expression := compare .gt (bin "n" .int) (literal (.int 1))

/-- A negation before a connective, with another connective inside. -/
def negatedSample : Expression :=
  not (and [undecided, or [binExists "x", generation], literal (.bool true)])

/-- The sample with its negation pushed inwards, its operands turned round and one repeated. -/
def spreadSample : Expression :=
  or [not (literal (.bool true)), not (or [generation, generation, binExists "x"]), not undecided]

theorem negatedSample_rewrites : Rewrites negatedSample spreadSample := by
  have hpush := Rewrites.negateJoined .all
    [undecided, or [binExists "x", generation], literal (.bool true)]
  have hturn : Rewrites _ _ := .reorder .any (List.reverse_perm [not undecided,
    not (or [binExists "x", generation]), not (literal (.bool true))]).symm
  have hswap : Rewrites (or [binExists "x", generation]) (or [generation, binExists "x"]) :=
    .reorder .any (.swap ..)
  have hrepeat : Rewrites (or [generation, binExists "x"])
      (or [generation, generation, binExists "x"]) :=
    .duplicate .any (List.mem_cons_self ..)
  exact hpush.trans <| hturn.trans <|
    .operand .any [not (literal (.bool true))] [not undecided] (.not (hswap.trans hrepeat))

theorem evaluates_kleene_negatedSample :
    Rewrites negatedSample spreadSample ∧
      negatedSample.selects [("x", .null)] 1 = spreadSample.selects [("x", .null)] 1 :=
  ⟨negatedSample_rewrites,
    (evaluates_kleene _ _).2.2.2 _ _ negatedSample_rewrites⟩

end Expression
end RecordService
