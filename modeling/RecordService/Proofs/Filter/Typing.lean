import RecordService.Proofs.Filter.Comparison
import RecordService.Proofs.Filter.Kleene
import RecordService.Proofs.Filter.Token

/-!
# Filters are well typed

The checker looks at the form of each operand where it stands, and at nothing below it. That is
enough for the evaluation: an expression of the form of a predicate is true, false or unknown of
every record, whatever kinds its bins hold.

* `Expression.Decides`: an expression is true, false or unknown of a record.
* `Expression.truthBy`: what an expression comes to if a value that stands where a truth value is
  due is read as one, in some given way.
* `Expression.filters_well_typed`: in what is read as a filter, truth values stand wherever they are
  due, so that it makes no difference how a value would be read.
-/

namespace RecordService

/-- The truth value of an outcome, where a value that is none is read as one. -/
def Outcome.truthBy (reading : Value → Truth) : Outcome → Truth
  | .bool false => .no
  | .bool true => .yes
  | .value v => reading v
  | .unknown => .unknown

theorem Truth.truthBy_outcome (reading : Value → Truth) (t : Truth) :
    t.outcome.truthBy reading = t := by
  cases t <;> rfl

theorem Truth.exists_outcome_eq_bool (b : Bool) : ∃ t : Truth, .bool b = t.outcome := by
  cases b with
  | false => exact ⟨.no, rfl⟩
  | true => exact ⟨.yes, rfl⟩

/-- A comparison never results in a value. -/
theorem Comparison.exists_judge_eq_outcome (op : Comparison) (a b : Value) :
    ∃ t : Truth, op.judge a b = t.outcome := by
  obtain ⟨o, ho⟩ | ⟨hkind, ha⟩ | hnone := Value.judge_cases a b
  · rw [Value.judge_of_standing ho]
    exact Truth.exists_outcome_eq_bool _
  · rw [Value.judge_of_unranked hkind ha]
    cases op with
    | eq | ne => exact Truth.exists_outcome_eq_bool _
    | _ => exact ⟨.unknown, rfl⟩
  · exact ⟨.unknown, (hnone op).1⟩

namespace Expression

variable {bins : Bins} {gen : UInt32} {e : Expression} {depth : Nat} {reading : Value → Truth}

/-! ## Predicates -/

/-- An expression is true, false or unknown of a record. -/
def Decides (bins : Bins) (gen : UInt32) (e : Expression) : Prop :=
  ∃ t : Truth, e.eval bins gen = t.outcome

theorem Decides.eval_eq (h : e.Decides bins gen) :
    e.eval bins gen = (e.truth bins gen).outcome := by
  obtain ⟨t, ht⟩ := h
  rw [truth, ht, Truth.truth_outcome]

theorem Decides.truthBy_eval (h : e.Decides bins gen) :
    (e.eval bins gen).truthBy reading = e.truth bins gen := by
  rw [h.eval_eq, Truth.truthBy_outcome]

/-- A bin that is to hold a truth value is unknown where it holds another kind. -/
theorem decides_bin (name : String) : (bin name .bool).Decides bins gen := by
  rw [Decides, eval, binOutcome]
  cases Ordered.find? name bins with
  | none => exact ⟨.unknown, rfl⟩
  | some v =>
    cases v with
    | bool b => exact Truth.exists_outcome_eq_bool b
    | _ => exact ⟨.unknown, rfl⟩

/-- The form of a predicate says enough, whatever its parts are. -/
theorem Predicate.decides (h : e.Predicate) : e.Decides bins gen := by
  cases h with
  | compare op left right =>
    rw [Decides, eval]
    split
    · exact op.exists_judge_eq_outcome _ _
    · exact ⟨.unknown, rfl⟩
  | and operands => exact ⟨_, eval_join .all operands⟩
  | or operands => exact ⟨_, eval_join .any operands⟩
  | not operand => exact ⟨_, eval_not operand⟩
  | binExists name => exact Truth.exists_outcome_eq_bool _
  | bin name => exact decides_bin name
  | literal b => exact Truth.exists_outcome_eq_bool b

/-! ## Nodes -/

/-- The operands of a node are what it takes: truth values, or else bins, literals or the generation
where they are compared. -/
def WellTyped (bins : Bins) (gen : UInt32) : Expression → Prop
  | compare _ left right => left.Operand ∧ right.Operand
  | and operands | or operands => ∀ e ∈ operands, e.Decides bins gen
  | not operand => operand.Decides bins gen
  | _ => True

theorem Sound.wellTyped (h : e.Sound) : e.WellTyped bins gen := by
  cases e with
  | compare op left right => exact h
  | and operands | or operands => exact fun e he => (h.2 e he).decides
  | not operand => exact Predicate.decides h
  | _ => exact trivial

/-! ## Reading values as truth values -/

mutual

/-- What an expression comes to if a value that stands where a truth value is due is read as one.
Evaluation itself reads each as unknown. -/
def truthBy (reading : Value → Truth) (bins : Bins) (gen : UInt32) : Expression → Truth
  | and operands => .least (truthsBy reading bins gen operands)
  | or operands => .greatest (truthsBy reading bins gen operands)
  | not operand => (truthBy reading bins gen operand).opposite
  | e => (e.eval bins gen).truthBy reading

/-- What operands come to. -/
def truthsBy (reading : Value → Truth) (bins : Bins) (gen : UInt32) : List Expression → List Truth
  | [] => []
  | e :: rest => truthBy reading bins gen e :: truthsBy reading bins gen rest

end

theorem truthsBy_eq_map (operands : List Expression) :
    truthsBy reading bins gen operands = operands.map (truthBy reading bins gen) := by
  induction operands with
  | nil => rfl
  | cons e rest ih => rw [truthsBy, ih, List.map_cons]

/-- Where each node has the operands that its form asks for, no value is ever read. -/
theorem truthBy_eq_truth (hroot : e.Predicate) (hsound : Throughout (fun _ f => f.Sound) depth e) :
    e.truthBy reading bins gen = e.truth bins gen := by
  induction e using induct generalizing depth with
  | and operands ih =>
    obtain ⟨⟨-, hpredicates⟩, hparts⟩ := throughout_and.mp hsound
    rw [truthBy, truthsBy_eq_map, List.map_congr_left fun f hf =>
      ih f hf (hpredicates f hf) (hparts f hf)]
    exact (truth_join .all operands).symm
  | or operands ih =>
    obtain ⟨⟨-, hpredicates⟩, hparts⟩ := throughout_or.mp hsound
    rw [truthBy, truthsBy_eq_map, List.map_congr_left fun f hf =>
      ih f hf (hpredicates f hf) (hparts f hf)]
    exact (truth_join .any operands).symm
  | not operand ih =>
    obtain ⟨hpredicate, hpart⟩ := throughout_not.mp hsound
    rw [truthBy, ih hpredicate hpart, truth_not]
  | _ => exact hroot.decides.truthBy_eval

/-! ## Filters -/

/-- What is read as a filter is true, false or unknown of every record. So is every operand of a
conjunction, a disjunction or a negation in it, and what is compared is a bin, a literal or the
generation. So a record that is not selected is one of which the filter is false or unknown, and
that is never for a value where a truth value is due: it would come to the same however such values
were read. -/
theorem filters_well_typed {b : Bytes} (h : ofBytes b = .ok e) (bins : Bins) (gen : UInt32) :
    e.Decides bins gen ∧ (∀ n f, Node n e f → f.WellTyped bins gen) ∧
      (e.selects bins gen = false → e.eval bins gen = .bool false ∨ e.eval bins gen = .unknown) ∧
      ∀ reading, e.eval bins gen = (e.truthBy reading bins gen).outcome := by
  have hfilter := check_eq_ok_iff.mp (check_of_ofBytes h)
  have hdecides : e.Decides bins gen := hfilter.root.decides
  have hsound : Throughout (fun _ f => f.Sound) 0 e := hfilter.sound
  refine ⟨hdecides, fun n f hf => (hfilter.sound n f hf).wellTyped, fun hrejected => ?_,
    fun reading => ?_⟩
  · obtain ⟨t, ht⟩ := hdecides
    rw [selects, ht] at hrejected
    rw [ht]
    cases t with
    | no => exact .inl rfl
    | unknown => exact .inr rfl
    | yes => cases hrejected
  · rw [truthBy_eq_truth hfilter.root hsound]
    exact hdecides.eval_eq

/-- A bin that is to hold a truth value, negated, beside one. -/
def flagFilter : Expression := or [not (bin "b" .bool), literal (.bool false)]

theorem flagFilter_throughout {P : Expression → Prop} (hor : P flagFilter)
    (hnot : P (not (bin "b" .bool))) (hbin : P (bin "b" .bool))
    (hliteral : P (literal (.bool false))) : Throughout (fun _ f => P f) 0 flagFilter := by
  refine throughout_or.mpr ⟨hor, List.forall_mem_cons.mpr ⟨?_, List.forall_mem_singleton.mpr ?_⟩⟩
  · exact throughout_not.mpr ⟨hnot, .of_leaf trivial hbin⟩
  · exact .of_leaf trivial hliteral

theorem ofBytes_flagFilter : ofBytes flagFilter.toBytes = .ok flagFilter := by
  have hplain : (Value.bool false).WellFormed ∧ (Value.bool false).Untagged :=
    ⟨Value.wellFormed_leaf (by trivial), (Value.everywhere_leaf (by trivial)).mpr nofun⟩
  have hfits : (literal (.bool false)).Fits := (Value.everywhere_leaf (by trivial)).mpr trivial
  exact ofBytes_toBytes (flagFilter_throughout trivial trivial trivial hplain)
    (flagFilter_throughout (by decide : 2 < 2 ^ 32) trivial (by decide : _ < 2 ^ 32) hfits)
    (by decide)

/-- Of a record whose bin holds a number the filter is unknown. -/
theorem filters_well_typed_flagFilter :
    ofBytes flagFilter.toBytes = .ok flagFilter ∧
      flagFilter.eval [("b", .int 1)] 1 = .unknown ∧
      flagFilter.Decides [("b", .int 1)] 1 ∧
      flagFilter.eval [("b", .int 1)] 1 =
        (flagFilter.truthBy (fun _ => .yes) [("b", .int 1)] 1).outcome := by
  obtain ⟨hdecides, -, -, hreading⟩ := filters_well_typed ofBytes_flagFilter [("b", .int 1)] 1
  exact ⟨ofBytes_flagFilter, rfl, hdecides, hreading _⟩

end Expression
end RecordService
