import RecordService.Proofs.Filter.Kleene
import RecordService.Proofs.Ordered
import RecordService.Proofs.Value

/-!
# The six comparisons

Each comparison looks at how its operands stand to each other, and accepts some of the three ways
that there are. So the laws that hold between comparisons are laws of standing: it turns round with
the operands, and it is transitive.

* `Value.standing?`: how two values of one kind stand to each other. `standing?_swap` and
  `standing?_trans` are its laws.
* `Value.judge_cases`: two values stand to each other in some way, are of a kind that has no order,
  or cannot be compared; and what the comparisons make of each.
* `Comparison.complement`, `Comparison.converse`: the comparison that accepts what another one does
  not, and the one that accepts the same with the operands exchanged.
* `Expression.Coherent`, `Expression.comparisons_coherent`: how the comparisons of any operands fit
  together, for every record.
-/

namespace RecordService

/-! ## Standing -/

namespace Comparison

section

variable {α : Type} [LT α] [DecidableLT α] {a b c : α}

theorem order_eq_lt_iff : order a b = .lt ↔ a < b := by
  unfold order
  split <;> rename_i h
  · exact iff_of_true rfl h
  · split <;> exact iff_of_false nofun h

theorem order_swap [Std.Asymm (fun a b : α => a < b)] (a b : α) :
    order b a = (order a b).swap := by
  unfold order
  by_cases h : a < b
  · rw [if_pos h, if_neg (Std.Asymm.asymm (r := fun a b : α => a < b) _ _ h), if_pos h]
    rfl
  · rw [if_neg h, if_neg h]
    split <;> rfl

theorem order_trans [Trans (fun a b : α => a < b) (fun a b : α => a < b) (fun a b : α => a < b)]
    (h : order a b = .lt) (h' : order b c = .lt) : order a c = .lt :=
  order_eq_lt_iff.mpr (Trans.trans (r := fun a b : α => a < b) (s := fun a b : α => a < b)
    (order_eq_lt_iff.mp h) (order_eq_lt_iff.mp h'))

theorem order_beq_eq [Std.Asymm (fun a b : α => a < b)] [Std.Trichotomous (fun a b : α => a < b)]
    [BEq α] [LawfulBEq α] (a b : α) : (order a b == .eq) = (a == b) := by
  unfold order
  have hasymm : ∀ {x y : α}, x < y → ¬y < x := Std.Asymm.asymm (r := fun a b : α => a < b) _ _
  by_cases h : a < b
  · have hne : a ≠ b := by rintro rfl; exact hasymm h h
    rw [if_pos h, beq_false_of_ne hne]
    rfl
  · rw [if_neg h]
    by_cases h' : b < a
    · have hne : a ≠ b := by rintro rfl; exact hasymm h' h'
      rw [if_pos h', beq_false_of_ne hne]
      rfl
    · have heq := Std.Trichotomous.trichotomous (r := fun a b : α => a < b) a b h h'
      rw [if_neg h', heq, beq_self_eq_true b]
      rfl

end

variable {x y z : Double}

theorem key?_isSome_iff : x.key?.isSome ↔ ¬x.isNaN := by
  unfold Double.key?
  split
  · simp [*]
  · split <;> simp [*]

theorem orderDouble?_isSome_iff : (orderDouble? x y).isSome ↔ ¬x.isNaN ∧ ¬y.isNaN := by
  rw [← key?_isSome_iff, ← key?_isSome_iff, orderDouble?]
  cases x.key? <;> cases y.key? <;> simp

theorem orderDouble?_swap (x y : Double) :
    orderDouble? y x = (orderDouble? x y).map Ordering.swap := by
  unfold orderDouble?
  cases x.key? with
  | none => cases y.key? <;> rfl
  | some k =>
    cases y.key? with
    | none => rfl
    | some l => exact congrArg some (order_swap k l)

theorem orderDouble?_trans (h : orderDouble? x y = some .lt) (h' : orderDouble? y z = some .lt) :
    orderDouble? x z = some .lt := by
  unfold orderDouble? at *
  cases hx : x.key? with
  | none => simp [hx] at h
  | some k =>
    cases hy : y.key? with
    | none => simp [hy] at h'
    | some l =>
      cases hz : z.key? with
      | none => simp [hz] at h'
      | some m =>
        rw [hx, hy] at h
        rw [hy, hz] at h'
        exact congrArg some (order_trans (Option.some.inj h) (Option.some.inj h'))

theorem same_of_orderDouble? {o : Ordering} (h : orderDouble? x y = some o) :
    Double.same x y = (o == .eq) := by
  unfold orderDouble? at h
  unfold Double.same
  cases hx : x.key? with
  | none => simp [hx] at h
  | some k =>
    cases hy : y.key? with
    | none => simp [hy] at h
    | some l =>
      rw [hx, hy] at h
      cases h
      exact (order_beq_eq k l).symm

end Comparison

namespace Value

/-- How two values of one kind stand to each other, if they have places in an order. -/
def standing? : Value → Value → Option Ordering
  | int a, int b => some (Comparison.order a.toInt b.toInt)
  | float a, float b => Comparison.orderDouble? a b
  | string a, string b => some (Comparison.order a b)
  | bool a, bool b => some (Comparison.order a.toNat b.toNat)
  | blob a, blob b => some (Comparison.order a b)
  | null, null => some .eq
  | _, _ => none

/-- A value of a kind whose values have an order, and with a place in it. -/
def IsRanked : Value → Prop
  | int _ | string _ | bool _ | blob _ | null => True
  | float x => ¬x.isNaN
  | list _ | map _ | geoJson _ => False

/-- A value of a kind whose values are equal or not, but in no order. -/
def IsUnranked : Value → Prop
  | list _ | map _ | geoJson _ => True
  | _ => False

variable {a b c : Value} {op : Comparison} {o : Ordering}

theorem standing?_isSome_iff :
    (standing? a b).isSome ↔ a.kindName = b.kindName ∧ a.IsRanked ∧ b.IsRanked := by
  cases a <;> cases b <;>
    simp [standing?, kindName, IsRanked, Comparison.orderDouble?_isSome_iff]

theorem standing?_swap (a b : Value) : standing? b a = (standing? a b).map Ordering.swap := by
  cases a <;> cases b
  case int.int a b => exact congrArg some (Comparison.order_swap a.toInt b.toInt)
  case float.float a b => exact Comparison.orderDouble?_swap a b
  case string.string a b => exact congrArg some (Comparison.order_swap a b)
  case bool.bool a b => exact congrArg some (Comparison.order_swap a.toNat b.toNat)
  case blob.blob a b => exact congrArg some (Comparison.order_swap a b)
  all_goals rfl

theorem standing?_trans (h : standing? a b = some .lt) (h' : standing? b c = some .lt) :
    standing? a c = some .lt := by
  cases a <;> cases b <;> simp only [standing?, reduceCtorEq] at h <;>
    cases c <;> simp only [standing?, reduceCtorEq] at h'
  case float.float.float => exact Comparison.orderDouble?_trans h h'
  case null.null.null => cases h
  all_goals
    exact congrArg some (Comparison.order_trans (Option.some.inj h) (Option.some.inj h'))

/-- What a comparison makes of two values that have places in one order. -/
theorem judge_of_standing (h : standing? a b = some o) : op.judge a b = .bool (op.accepts o) := by
  cases a <;> cases b <;> simp only [standing?, reduceCtorEq] at h
  case float.float => simp only [Comparison.judge, h]
  all_goals
    cases h
    rfl

/-- What a comparison makes of two values of a kind that has no order. -/
theorem judge_of_unranked (hkind : a.kindName = b.kindName) (ha : a.IsUnranked) :
    op.judge a b = op.judgeEqual (a.same b) := by
  cases a with
  | list => cases b with
    | list => rfl
    | _ => simp [kindName] at hkind
  | map => cases b with
    | map => rfl
    | _ => simp [kindName] at hkind
  | geoJson => cases b with
    | geoJson => rfl
    | _ => simp [kindName] at hkind
  | _ => exact ha.elim

theorem isUnranked_congr (h : a.kindName = b.kindName) : a.IsUnranked ↔ b.IsUnranked := by
  cases a <;> cases b <;> simp [kindName] at h <;> exact Iff.rfl

theorem judge_of_incomparable (h : standing? a b = none)
    (h' : a.kindName = b.kindName → ¬a.IsUnranked) : op.judge a b = .unknown := by
  cases a <;> cases b <;> try rfl
  case float.float => simp only [Comparison.judge, show Comparison.orderDouble? _ _ = none from h]
  case list.list => exact absurd trivial (h' rfl)
  case map.map => exact absurd trivial (h' rfl)
  case geoJson.geoJson => exact absurd trivial (h' rfl)
  all_goals cases h

/-- No comparison makes anything of two values that are neither, whichever stands first. -/
theorem incomparable (h : standing? a b = none) (h' : a.kindName = b.kindName → ¬a.IsUnranked)
    (op : Comparison) : op.judge a b = .unknown ∧ op.judge b a = .unknown := by
  have hturned : standing? b a = none := by rw [standing?_swap, h]; rfl
  have hkind : b.kindName = a.kindName → ¬b.IsUnranked := fun hkind =>
    (isUnranked_congr hkind).not.mpr (h' hkind.symm)
  exact ⟨judge_of_incomparable h h', judge_of_incomparable hturned hkind⟩

/-- Two values stand to each other in some way, are of a kind that has no order, or cannot be
compared. -/
theorem judge_cases (a b : Value) :
    (∃ o, standing? a b = some o) ∨ (a.kindName = b.kindName ∧ a.IsUnranked) ∨
      ∀ op : Comparison, op.judge a b = .unknown ∧ op.judge b a = .unknown := by
  cases h : standing? a b with
  | some o => exact .inl ⟨o, rfl⟩
  | none =>
    by_cases h' : a.kindName = b.kindName ∧ a.IsUnranked
    · exact .inr (.inl h')
    · exact .inr (.inr (incomparable h (not_and.mp h')))

end Value

/-! ## Equality -/

theorem Double.same_comm (x y : Double) : x.same y = y.same x := by
  unfold Double.same
  cases x.key? <;> cases y.key? <;> simp [eq_comm]

namespace Value

variable {a b : Value} {o : Ordering}

theorem sameItems_comm {as bs : List Value} (h : ∀ a ∈ as, ∀ b, a.same b = b.same a) :
    sameItems as bs = sameItems bs as := by
  induction as generalizing bs with
  | nil => cases bs <;> rfl
  | cons a as ih =>
    obtain ⟨ha, has⟩ := List.forall_mem_cons.mp h
    cases bs with
    | nil => rfl
    | cons b bs => rw [sameItems, sameItems, ha, ih has]

theorem sameEntries_comm {as bs : List (String × Value)}
    (h : ∀ e ∈ as, ∀ b, e.2.same b = b.same e.2) : sameEntries as bs = sameEntries bs as := by
  induction as generalizing bs with
  | nil => cases bs <;> rfl
  | cons e as ih =>
    obtain ⟨ha, has⟩ := List.forall_mem_cons.mp h
    cases bs with
    | nil => rfl
    | cons f bs => rw [sameEntries, sameEntries, ha, ih has, Bool.beq_comm]

theorem same_comm (a b : Value) : a.same b = b.same a := by
  induction a using induct generalizing b with
  | leaf a ha =>
    cases a with
    | list => exact ha.elim
    | map => exact ha.elim
    | null => cases b <;> rfl
    | float x => cases b with
      | float y => exact Double.same_comm x y
      | _ => rfl
    | _ => cases b <;> simp [same, Bool.beq_comm]
  | list items ih => cases b with
    | list items' => exact sameItems_comm ih
    | _ => rfl
  | map entries ih => cases b with
    | map entries' => exact sameEntries_comm ih
    | _ => rfl

/-- Values that have places in one order are equal if these are one place. -/
theorem same_of_standing? (h : standing? a b = some o) : a.same b = (o == .eq) := by
  cases a <;> cases b <;> simp only [standing?, reduceCtorEq] at h
  case float.float => exact Comparison.same_of_orderDouble? h
  case int.int a b =>
    cases h
    have hInt : (a == b) = (a.toInt == b.toInt) := beq_eq_beq.mpr Int64.toInt_inj.symm
    exact hInt.trans (Comparison.order_beq_eq a.toInt b.toInt).symm
  case string.string a b => cases h; exact (Comparison.order_beq_eq a b).symm
  case bool.bool a b => cases h; cases a <;> cases b <;> rfl
  case blob.blob a b =>
    cases h
    exact (Comparison.order_beq_eq a b).symm
  case null.null => cases h; rfl

end Value

namespace Comparison

/-! ## Complements and converses -/

/-- The comparison that accepts what another one does not. -/
def complement : Comparison → Comparison
  | eq => ne
  | ne => eq
  | gt => le
  | ge => lt
  | lt => ge
  | le => gt

/-- The comparison that accepts the same with the operands exchanged. -/
def converse : Comparison → Comparison
  | eq => eq
  | ne => ne
  | gt => lt
  | ge => le
  | lt => gt
  | le => ge

theorem accepts_complement (op : Comparison) (o : Ordering) :
    op.complement.accepts o = !op.accepts o := by
  cases op <;> cases o <;> rfl

theorem accepts_converse (op : Comparison) (o : Ordering) :
    op.converse.accepts o.swap = op.accepts o := by
  cases op <;> cases o <;> rfl

/-- Less, equal and greater each accept one way to stand. -/
theorem existsUnique_accepts (o : Ordering) :
    ∃! op : Comparison, op ∈ [lt, eq, gt] ∧ op.accepts o = true := by
  cases o with
  | lt => exact ⟨lt, ⟨by decide, rfl⟩, fun op => by cases op <;> decide⟩
  | eq => exact ⟨eq, ⟨by decide, rfl⟩, fun op => by cases op <;> decide⟩
  | gt => exact ⟨gt, ⟨by decide, rfl⟩, fun op => by cases op <;> decide⟩

theorem judgeEqual_complement (op : Comparison) (b : Bool) :
    op.complement.judgeEqual b = Expression.negate (op.judgeEqual b) := by
  cases op <;> cases b <;> rfl

theorem judgeEqual_converse (op : Comparison) (b : Bool) :
    op.converse.judgeEqual b = op.judgeEqual b := by
  cases op <;> rfl

theorem judge_complement (op : Comparison) (a b : Value) :
    op.complement.judge a b = Expression.negate (op.judge a b) := by
  obtain ⟨o, h⟩ | ⟨hkind, ha⟩ | h := Value.judge_cases a b
  · rw [Value.judge_of_standing h, Value.judge_of_standing h, accepts_complement]
    rfl
  · rw [Value.judge_of_unranked hkind ha, Value.judge_of_unranked hkind ha, judgeEqual_complement]
  · rw [(h _).1, (h _).1]
    rfl

theorem judge_converse (op : Comparison) (a b : Value) :
    op.converse.judge b a = op.judge a b := by
  obtain ⟨o, h⟩ | ⟨hkind, ha⟩ | h := Value.judge_cases a b
  · have h' : Value.standing? b a = some o.swap := by rw [Value.standing?_swap, h]; rfl
    rw [Value.judge_of_standing h, Value.judge_of_standing h', accepts_converse]
  · rw [Value.judge_of_unranked hkind ha,
      Value.judge_of_unranked hkind.symm ((Value.isUnranked_congr hkind).mp ha),
      judgeEqual_converse, Value.same_comm]
  · rw [(h _).1, (h _).2]

end Comparison

namespace Expression

variable {bins : Bins} {gen : UInt32} {l r m : Expression} {a b : Value}

/-! ## Comparing operands -/

/-- The value that an operand is known to have for a record, if there is one. -/
def known (bins : Bins) (gen : UInt32) (e : Expression) : Option Value := (e.eval bins gen).value?

theorem eval_compare (op : Comparison) (hl : l.known bins gen = some a)
    (hr : r.known bins gen = some b) : (compare op l r).eval bins gen = op.judge a b := by
  unfold known at hl hr
  rw [eval, hl, hr]

theorem eval_compare_none (op : Comparison)
    (h : l.known bins gen = none ∨ r.known bins gen = none) :
    (compare op l r).eval bins gen = .unknown := by
  unfold known at h
  rw [eval]
  split
  · rename_i hl hr
    simp [hl, hr] at h
  · rfl

theorem value?_ofValue (v : Value) : (Outcome.ofValue v).value? = some v := by cases v <;> rfl

/-- A bin is known if it holds a value of the kind that is expected. -/
theorem known_bin (name : String) (kind : BinKind) :
    (bin name kind).known bins gen = (Ordered.find? name bins).filter kind.admits := by
  unfold known eval binOutcome
  cases Ordered.find? name bins with
  | none => rfl
  | some v =>
    simp only [Option.filter_some]
    split
    · exact value?_ofValue v
    · rfl

theorem eval_complement (op : Comparison) (l r : Expression) :
    (compare op.complement l r).eval bins gen =
      ((compare op l r).truth bins gen).opposite.outcome := by
  rw [← eval_not, eval, eval, eval]
  split
  · exact Comparison.judge_complement op _ _
  · rfl

theorem eval_converse (op : Comparison) (l r : Expression) :
    (compare op.converse r l).eval bins gen = (compare op l r).eval bins gen := by
  cases hl : l.known bins gen with
  | none => rw [eval_compare_none _ (.inl hl), eval_compare_none _ (.inr hl)]
  | some a =>
    cases hr : r.known bins gen with
    | none => rw [eval_compare_none _ (.inl hr), eval_compare_none _ (.inr hr)]
    | some b => rw [eval_compare _ hr hl, eval_compare _ hl hr, Comparison.judge_converse]

/-- What is less has a lesser place in one order. -/
theorem standing?_of_lt (h : (compare .lt l r).eval bins gen = .bool true) :
    ∃ a b, l.known bins gen = some a ∧ r.known bins gen = some b ∧ a.standing? b = some .lt := by
  cases hl : l.known bins gen with
  | none => rw [eval_compare_none _ (.inl hl)] at h; cases h
  | some a =>
    cases hr : r.known bins gen with
    | none => rw [eval_compare_none _ (.inr hr)] at h; cases h
    | some b =>
      refine ⟨a, b, rfl, rfl, ?_⟩
      rw [eval_compare _ hl hr] at h
      obtain ⟨o, hab⟩ | ⟨hkind, ha⟩ | hab := Value.judge_cases a b
      · rw [Value.judge_of_standing hab] at h
        cases o with
        | lt => exact hab
        | eq => cases h
        | gt => cases h
      · rw [Value.judge_of_unranked hkind ha] at h
        cases h
      · rw [(hab _).1] at h
        cases h

theorem lt_trans (h : (compare .lt l r).eval bins gen = .bool true)
    (h' : (compare .lt r m).eval bins gen = .bool true) :
    (compare .lt l m).eval bins gen = .bool true := by
  obtain ⟨a, b, hl, hr, hab⟩ := standing?_of_lt h
  obtain ⟨b', c, hr', hm, hbc⟩ := standing?_of_lt h'
  cases hr.symm.trans hr'
  rw [eval_compare _ hl hm, Value.judge_of_standing (Value.standing?_trans hab hbc)]
  rfl

/-- Of values that have places in one order, one is less, they are equal, or one is greater. -/
theorem trichotomy (hl : l.known bins gen = some a) (hr : r.known bins gen = some b)
    (hkind : a.kindName = b.kindName) (ha : a.IsRanked) (hb : b.IsRanked) :
    ∃! op : Comparison, op ∈ [.lt, .eq, .gt] ∧ (compare op l r).eval bins gen = .bool true := by
  obtain ⟨o, ho⟩ := Option.isSome_iff_exists.mp (Value.standing?_isSome_iff.mpr ⟨hkind, ha, hb⟩)
  have hjudge (op : Comparison) :
      (compare op l r).eval bins gen = .bool true ↔ op.accepts o = true := by
    rw [eval_compare _ hl hr, Value.judge_of_standing ho, Outcome.bool.injEq]
  simp only [hjudge]
  exact Comparison.existsUnique_accepts o

/-- No comparison of two expressions is known for a record, in either order. -/
def Incomparable (bins : Bins) (gen : UInt32) (l r : Expression) : Prop :=
  ∀ op, (compare op l r).eval bins gen = .unknown ∧ (compare op r l).eval bins gen = .unknown

theorem incomparable_of_none (h : l.known bins gen = none) (r : Expression) :
    Incomparable bins gen l r :=
  fun op => ⟨eval_compare_none op (.inl h), eval_compare_none op (.inr h)⟩

theorem incomparable_of_standing? (hl : l.known bins gen = some a) (hr : r.known bins gen = some b)
    (h : a.standing? b = none) (h' : a.kindName = b.kindName → ¬a.IsUnranked) :
    Incomparable bins gen l r := by
  intro op
  rw [eval_compare op hl hr, eval_compare op hr hl]
  exact Value.incomparable h h' op

/-! ## Coherence -/

/-- How the comparisons of any operands fit together, for a record. -/
structure Coherent (bins : Bins) (gen : UInt32) : Prop where
  ne_eq : ∀ l r, (compare .ne l r).eval bins gen =
    ((compare .eq l r).truth bins gen).opposite.outcome
  ge_eq : ∀ l r, (compare .ge l r).eval bins gen =
    ((compare .lt l r).truth bins gen).opposite.outcome
  le_eq : ∀ l r, (compare .le l r).eval bins gen =
    ((compare .gt l r).truth bins gen).opposite.outcome
  gt_eq : ∀ l r, (compare .gt l r).eval bins gen = (compare .lt r l).eval bins gen
  eq_symm : ∀ l r, (compare .eq l r).eval bins gen = (compare .eq r l).eval bins gen
  /-- Of two known values of one kind with an order, exactly one of three comparisons is true. -/
  trichotomy : ∀ l r a b, l.known bins gen = some a → r.known bins gen = some b →
    a.kindName = b.kindName → a.IsRanked → b.IsRanked →
    ∃! op : Comparison, op ∈ [.lt, .eq, .gt] ∧ (compare op l r).eval bins gen = .bool true
  lt_trans : ∀ l r m, (compare .lt l r).eval bins gen = .bool true →
    (compare .lt r m).eval bins gen = .bool true → (compare .lt l m).eval bins gen = .bool true
  /-- Two known values of one kind without an order are equal or not, and no more is known. -/
  unranked : ∀ op l r a b, l.known bins gen = some a → r.known bins gen = some b →
    a.kindName = b.kindName → a.IsUnranked →
    ((∃ t, (compare op l r).eval bins gen = .bool t) ↔ op = .eq ∨ op = .ne)
  /-- Equality of known values that can be compared is equality of values. -/
  eq_same : ∀ l r a b, l.known bins gen = some a → r.known bins gen = some b →
    a.kindName = b.kindName → a.IsUnranked ∨ (a.IsRanked ∧ b.IsRanked) →
    (compare .eq l r).eval bins gen = .bool (a.same b)
  mixed : ∀ l r a b, l.known bins gen = some a → r.known bins gen = some b →
    a.kindName ≠ b.kindName → Incomparable bins gen l r
  nan : ∀ l r x, l.known bins gen = some (.float x) → x.isNaN → Incomparable bins gen l r
  missing : ∀ name kind r, Ordered.find? name bins = none →
    Incomparable bins gen (bin name kind) r
  otherKind : ∀ name (kind : BinKind) v r, Ordered.find? name bins = some v →
    kind.name ≠ v.kindName → Incomparable bins gen (bin name kind) r

/-- The six comparisons fit together, for every record and all operands. -/
theorem comparisons_coherent (bins : Bins) (gen : UInt32) : Coherent bins gen where
  ne_eq := eval_complement .eq
  ge_eq := eval_complement .lt
  le_eq := eval_complement .gt
  gt_eq l r := eval_converse .lt r l
  eq_symm l r := eval_converse .eq r l
  trichotomy _ _ _ _ := trichotomy
  lt_trans _ _ _ := lt_trans
  unranked op l r a b hl hr hkind ha := by
    rw [eval_compare op hl hr, Value.judge_of_unranked hkind ha]
    cases op <;> simp [Comparison.judgeEqual]
  eq_same l r a b hl hr hkind h := by
    rw [eval_compare .eq hl hr]
    rcases h with ha | ⟨ha, hb⟩
    · exact Value.judge_of_unranked hkind ha
    · obtain ⟨o, ho⟩ :=
        Option.isSome_iff_exists.mp (Value.standing?_isSome_iff.mpr ⟨hkind, ha, hb⟩)
      rw [Value.judge_of_standing ho, Value.same_of_standing? ho]
      rfl
  mixed l r a b hl hr hkind := by
    refine incomparable_of_standing? hl hr ?_ fun h => absurd h hkind
    exact Option.not_isSome_iff_eq_none.mp fun h => hkind (Value.standing?_isSome_iff.mp h).1
  nan l r x hl hx := by
    cases hr : r.known bins gen with
    | none => exact fun op => (incomparable_of_none hr l op).symm
    | some b =>
      refine incomparable_of_standing? hl hr ?_ fun _ => id
      exact Option.not_isSome_iff_eq_none.mp fun h => (Value.standing?_isSome_iff.mp h).2.1 hx
  missing name kind r h := incomparable_of_none (by rw [known_bin, h]; rfl) r
  otherKind name kind v r h hkind := by
    refine incomparable_of_none ?_ r
    rw [known_bin, h, Option.filter_some, if_neg]
    exact fun hadmits => hkind (beq_iff_eq.mp hadmits)

/-- Two numbers, a list that holds a NaN, and a NaN. -/
def mixedBins : Bins :=
  [("a", .int 1), ("b", .int 7), ("l", .list [.float .nan]), ("x", .float .nan)]

theorem comparisons_coherent_mixedBins :
    (∃! op : Comparison, op ∈ [.lt, .eq, .gt] ∧
        (compare op (bin "a" .int) generation).eval mixedBins 2 = .bool true) ∧
      (compare .lt (bin "a" .int) (bin "b" .int)).eval mixedBins 2 = .bool true ∧
      (compare .eq (bin "l" .list) (bin "l" .list)).eval mixedBins 2 = .bool false ∧
      Incomparable mixedBins 2 (bin "x" .float) (bin "x" .float) ∧
      Incomparable mixedBins 2 (bin "a" .string) (literal (.string "1")) ∧
      Incomparable mixedBins 2 (bin "y" .int) generation := by
  have h := comparisons_coherent mixedBins 2
  exact ⟨h.trichotomy _ _ _ _ rfl rfl rfl trivial trivial,
    h.lt_trans (bin "a" .int) generation (bin "b" .int) rfl rfl,
    h.eq_same (bin "l" .list) (bin "l" .list) _ _ rfl rfl rfl (.inl trivial),
    h.nan _ _ _ rfl (by decide),
    h.otherKind _ _ _ _ rfl (by decide),
    h.missing _ _ _ rfl⟩

end Expression

end RecordService
