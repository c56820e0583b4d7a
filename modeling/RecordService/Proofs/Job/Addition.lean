import RecordService.Proofs.Job.Refusal
import RecordService.Proofs.Job.Tally

/-!
# Additions are exact or refused

Operations that do nothing to a bin but add to it and report it, whatever they do to other bins in
between, either add up without loss or are refused as a whole. They are refused as soon as an
increment is no integer, or the integer that the bin comes to has no room in 64 bits.

* `Operation.total`: the integer that a bin comes to, without bounds.
* `Operation.Fits`: all increments are integers, and there is room for all that the bin comes to.
* `Operation.Exact`, `Operation.applyFrom_exact`: what operations come to that are not refused.
* `Operation.additions_exact_or_refused`: an operate and a job leave a record alone that does not
  have the room.
-/

namespace RecordService

namespace Operation

variable {p q : Progress} {op : Operation} {ops : List Operation} {bin : String} {a b : Int64}

/-- An operation does nothing to a bin but add to it or report it. -/
def OnlyAdds (bin : String) : Operation → Prop
  | put name _ | append name _ | prepend name _ | deleteBin name => name ≠ bin
  | add .. | touch | read _ | get => True

/-- Whether an operation reports a bin that is there. -/
def reports (bin : String) : Operation → Bool
  | read name => name == bin
  | get => true
  | _ => false

/-- What a bin comes to that has held an integer, by the integers that operations add to it. There
are no bounds to it. -/
def total (bin : String) (a : Int64) (ops : List Operation) : Int :=
  a.toInt + sumOf (increments bin ops)

/-- All that operations add to a bin are integers, and what it comes to on the way is one of 64 bits
throughout. -/
structure Fits (bin : String) (a : Int64) (ops : List Operation) : Prop where
  integers : ∀ v, add bin v ∈ ops → ∃ k : Int64, v = .int k
  room : ∀ front, front <+: ops → -2 ^ 63 ≤ total bin a front ∧ total bin a front < 2 ^ 63

/-- Operations have added up without loss: there was room for all that the bin came to, it has ended
at the sum, and what has been reported of it is the sum at the last report. Before the operations
something else may have been reported. -/
structure Exact (bin : String) (a : Int64) (ops : List Operation) (before : Option Value)
    (done : Progress) : Prop where
  fits : Fits bin a ops
  ends : ∃ n, Ordered.find? bin done.bins = some (.int n) ∧ n.toInt = total bin a ops
  reported : ∀ front op back, ops = front ++ op :: back → op.reports bin →
    (∀ later ∈ back, later.reports bin = false) →
    ∃ n, Ordered.find? bin done.results = some (.int n) ∧ n.toInt = total bin a front
  unreported : (∀ op ∈ ops, op.reports bin = false) → Ordered.find? bin done.results = before

/-! ## Sums -/

theorem total_nil : total bin a [] = a.toInt := Int.add_zero _

/-- The sum may be taken step by step. -/
theorem total_cons (hb : b.toInt = a.toInt + sumOf (increment? bin op).toList)
    (rest : List Operation) : total bin b rest = total bin a (op :: rest) := by
  rw [total, total, hb, increments_cons, sumOf_append, Int.add_assoc]

theorem increment?_of_ne (h : ∀ v, op ≠ add bin v) : increment? bin op = none := by
  cases op with
  | add name v =>
    have hname : name ≠ bin := by
      rintro rfl
      exact h v rfl
    cases v with
    | int k => exact if_neg hname
    | _ => rfl
  | _ => rfl

theorem Fits.nil (bin : String) (a : Int64) : Fits bin a [] where
  integers := nofun
  room front h := by
    rw [List.prefix_nil.mp h, total_nil]
    exact ⟨a.le_toInt, a.toInt_lt⟩

theorem Fits.cons (hop : ∀ v, op = add bin v → ∃ k : Int64, v = .int k)
    (hb : b.toInt = a.toInt + sumOf (increment? bin op).toList) (h : Fits bin b ops) :
    Fits bin a (op :: ops) where
  integers v hv := (List.mem_cons.mp hv).elim (fun h => hop v h.symm) (h.integers v)
  room front hfront := by
    rcases List.prefix_cons_iff.mp hfront with rfl | ⟨rest, rfl, hrest⟩
    · rw [total_nil]
      exact ⟨a.le_toInt, a.toInt_lt⟩
    · rw [← total_cons hb]
      exact h.room rest hrest

/-! ## One operation -/

/-- What does not add to a bin leaves it as it is. -/
theorem find?_apply (hsorted : Ordered.Sorted p.bins) (hop : op.OnlyAdds bin)
    (hadd : ∀ v, op ≠ add bin v) (h : apply p op = .ok q) :
    Ordered.find? bin q.bins = Ordered.find? bin p.bins := by
  cases op with
  | put name v =>
    cases h
    exact (find?_store hsorted name v bin).trans (if_neg (Ne.symm hop))
  | add name v =>
    obtain ⟨w, -, rfl⟩ := map_eq_ok_iff.mp h
    refine (Ordered.find?_insert ..).trans (if_neg ?_)
    rintro rfl
    exact hadd v rfl
  | append name text | prepend name text =>
    obtain ⟨w, -, rfl⟩ := map_eq_ok_iff.mp h
    exact (Ordered.find?_insert ..).trans (if_neg (Ne.symm hop))
  | deleteBin name =>
    cases h
    exact Ordered.find?_erase_of_ne (Ne.symm hop) p.bins
  | touch =>
    cases h
    rfl
  | read name =>
    simp only [apply] at h
    split at h <;> cases h <;> rfl
  | get =>
    cases h
    rfl

/-- An operation that adds to a bin does so by an integer, and without loss. -/
theorem apply_onlyAdds (hsorted : Ordered.Sorted p.bins)
    (ha : Ordered.find? bin p.bins = some (.int a)) (hop : op.OnlyAdds bin)
    (h : apply p op = .ok q) :
    (∀ v, op = add bin v → ∃ k : Int64, v = .int k) ∧
      ∃ b, Ordered.find? bin q.bins = some (.int b) ∧
        b.toInt = a.toInt + sumOf (increment? bin op).toList := by
  by_cases hadd : ∃ v, op = add bin v
  · obtain ⟨v, rfl⟩ := hadd
    obtain ⟨w, hw, rfl⟩ := map_eq_ok_iff.mp h
    rw [ha] at hw
    obtain ⟨k, n, rfl, rfl, hn⟩ := added_to_integer hw
    have hone : increment? bin (add bin (.int k)) = some k := if_pos rfl
    refine ⟨fun v hv => ?_, n, (Ordered.find?_insert ..).trans (if_pos rfl), ?_⟩
    · cases hv
      exact ⟨k, rfl⟩
    · rw [hn, hone]
      exact congrArg (a.toInt + ·) (Int.add_zero _).symm
  · have hadd : ∀ v, op ≠ add bin v := fun v hv => hadd ⟨v, hv⟩
    refine ⟨fun v hv => absurd hv (hadd v), a, (find?_apply hsorted hop hadd h).trans ha, ?_⟩
    rw [increment?_of_ne hadd]
    exact (Int.add_zero _).symm

/-- What is reported of a bin that is there. -/
theorem find?_results_apply {v : Value} (hsorted : Ordered.Sorted p.bins)
    (hv : Ordered.find? bin p.bins = some v) (h : apply p op = .ok q) :
    Ordered.find? bin q.results =
      if op.reports bin then some v else Ordered.find? bin p.results := by
  cases op with
  | put | deleteBin | touch =>
    cases h
    rfl
  | add | append | prepend =>
    obtain ⟨w, -, rfl⟩ := map_eq_ok_iff.mp h
    rfl
  | read name =>
    simp only [apply] at h
    by_cases hname : name = bin
    · subst hname
      rw [hv] at h
      cases h
      exact ((Ordered.find?_insert ..).trans (if_pos rfl)).trans (if_pos (beq_self_eq_true _)).symm
    · rw [reports, if_neg (by simpa using hname)]
      split at h
      · cases h
        exact (Ordered.find?_insert ..).trans (if_neg (Ne.symm hname))
      · cases h
        rfl
  | get =>
    cases h
    have hentries : ∀ e ∈ p.bins, Ordered.find? e.1 p.bins = some e.2 := fun e he =>
      (Ordered.find?_eq_some_iff hsorted).mpr he
    have hmem : bin ∈ p.bins.map (·.1) := List.mem_map_of_mem (Ordered.mem_of_find? hv)
    have hfold := Ordered.find?_foldl_insert (m := p.results)
      (f := fun name => Ordered.find? name p.bins) hentries bin
    rw [if_pos hmem, hv] at hfold
    exact hfold

/-! ## All operations -/

theorem Exact.cons {before : Option Value} (hop : ∀ v, op = add bin v → ∃ k : Int64, v = .int k)
    (hb : b.toInt = a.toInt + sumOf (increment? bin op).toList)
    (h : Exact bin b ops (if op.reports bin then some (.int a) else before) q) :
    Exact bin a (op :: ops) before q where
  fits := h.fits.cons hop hb
  ends := by
    obtain ⟨n, hn, hsum⟩ := h.ends
    exact ⟨n, hn, hsum.trans (total_cons hb ops)⟩
  reported front op' back hsplit hreports hlater := by
    cases front with
    | nil =>
      obtain ⟨rfl, rfl⟩ := List.cons.inj hsplit
      rw [h.unreported hlater, if_pos hreports]
      exact ⟨a, rfl, total_nil.symm⟩
    | cons first front =>
      obtain ⟨rfl, hrest⟩ := List.cons.inj hsplit
      obtain ⟨n, hn, hsum⟩ := h.reported front op' back hrest hreports hlater
      exact ⟨n, hn, hsum.trans (total_cons hb front)⟩
  unreported hnone := by
    obtain ⟨hfirst, hrest⟩ := List.forall_mem_cons.mp hnone
    rw [h.unreported hrest, hfirst, if_neg Bool.false_ne_true]

/-- Operations that are not refused add up without loss. -/
theorem applyFrom_exact (hsorted : Ordered.Sorted p.bins)
    (ha : Ordered.find? bin p.bins = some (.int a)) (hops : ∀ op ∈ ops, op.OnlyAdds bin)
    (h : applyFrom p ops = .ok q) : Exact bin a ops (Ordered.find? bin p.results) q := by
  induction ops generalizing p a with
  | nil =>
    cases h
    refine ⟨Fits.nil bin a, ⟨a, ha, total_nil.symm⟩, fun front op back hsplit => ?_, fun _ => rfl⟩
    cases front <;> cases hsplit
  | cons op rest ih =>
    obtain ⟨hop, hrest⟩ := List.forall_mem_cons.mp hops
    obtain ⟨p', hp, hq⟩ := bind_eq_ok_iff.mp h
    obtain ⟨hinteger, b, hb, hsum⟩ := apply_onlyAdds hsorted ha hop hp
    have hexact := ih (apply_sorted hsorted hp) hb hrest hq
    rw [find?_results_apply hsorted ha hp] at hexact
    exact hexact.cons hinteger hsum

/-- Operations for which there is no room are refused. -/
theorem applyAll_of_not_fits {bins : Bins} (hsorted : Ordered.Sorted bins)
    (ha : Ordered.find? bin bins = some (.int a)) (hops : ∀ op ∈ ops, op.OnlyAdds bin)
    (hfits : ¬Fits bin a ops) : ∃ why, applyAll ops bins = .error why := by
  cases h : applyAll ops bins with
  | error why => exact ⟨why, rfl⟩
  | ok done =>
    exact absurd (applyFrom_exact (p := ⟨bins, [], false⟩) hsorted ha hops h).fits hfits

/-! ## Operates and jobs -/

/-- A bin holds an integer that does not fit what operations add to it. -/
def Misfits (bin : String) (ops : List Operation) (bins : Bins) : Prop :=
  ∃ a, Ordered.find? bin bins = some (.int a) ∧ ¬Fits bin a ops

theorem Misfits.refused {bins : Bins} (h : Misfits bin ops bins) (hsorted : Ordered.Sorted bins)
    (hops : ∀ op ∈ ops, op.OnlyAdds bin) : ∃ why, applyAll ops bins = .error why := by
  obtain ⟨a, ha, hfits⟩ := h
  exact applyAll_of_not_fits hsorted ha hops hfits

/-- Operations that do nothing to a bin but add to it and report it are applied without loss, or are
refused for a parameter if an increment is no integer or there is no room for a sum on the way. Then
an operate that passes its checks is answered so and leaves the store as it is. A job that waits
fails and never changes a record in which there is no room whenever its worker takes a step,
whatever else happens. -/
theorem additions_exact_or_refused (hops : ∀ op ∈ ops, op.OnlyAdds bin) :
    (∀ bins a, Ordered.Sorted bins → Ordered.find? bin bins = some (.int a) →
      (∀ done, applyAll ops bins = .ok done → Exact bin a ops none done) ∧
        (¬Fits bin a ops → ∃ reason,
          (applyAll ops bins).mapError Cell.operationError = .error (.parameter reason))) ∧
      ∀ settings start m, Moment.Reaches ⟨.empty settings, start⟩ m →
        (∀ address options doubt r, m.store.access = .ok doubt →
          m.store.live? m.now address.ns address.digest = some r →
          Cell.checkOperate (some r) ops options = .ok () → Misfits bin ops r.bins →
          ∃ reason, m.store.operate m.now address ops options =
            (.error (.parameter reason), m.store)) ∧
        ∀ (job : Job) d events, job.request.ops = ops → Moment.Waits m.store job →
          m.AtSteps job.id events (fun m => ∃ r,
            m.store.live? m.now job.request.selection.ns d = some r ∧
              r.isIn job.request.selection.set ∧ r.passes job.request.selection.filter ∧
              Misfits bin ops r.bins) →
          job.Fails d m events := by
  refine ⟨fun bins a hsorted ha => ⟨fun done h => ?_, fun hfits => ?_⟩,
    fun settings start m hm => ?_⟩
  · exact applyFrom_exact (p := ⟨bins, [], false⟩) hsorted ha hops h
  · obtain ⟨why, h⟩ := applyAll_of_not_fits hsorted ha hops hfits
    exact ⟨why.message, by rw [h]; rfl⟩
  have hwf : m.store.WellFormed := hm.wellFormed_of_empty
  refine ⟨fun address options doubt r haccess hlive hcheck hmisfits => ?_,
    fun job d events hjob hwaits hmisfits => ?_⟩
  · obtain ⟨why, h⟩ := hmisfits.refused (hwf.live?_bins hlive) hops
    exact ⟨why.message, Store.operate_of_refused haccess hlive hcheck h⟩
  · have hnumbered : m.store.Numbered := by
      obtain ⟨past, rfl⟩ := hm
      exact Moment.run_numbered (Store.empty_numbered settings) past
    refine hwaits.fails hwf hnumbered fun front back hsplit => ?_
    obtain ⟨r, hlive, hset, hpasses, hmisfit⟩ := hmisfits front back hsplit
    have hsorted := (Moment.run_wellFormed hwf front).live?_bins hlive
    obtain ⟨why, h⟩ := hmisfit.refused hsorted hops
    exact ⟨r, why, hlive, hset, hpasses, hjob ▸ h⟩

/-! ### Next to the largest integer -/

/-- One less than the largest integer. -/
def nearMax : Int64 := 9223372036854775806

/-- The bin comes to the largest integer, is reported, and comes back. -/
def upAndBack : List Operation :=
  [.add "n" (.int 1), .put "m" .null, .read "n", .add "n" (.int (-1))]

/-- The sum would be one of 64 bits again, but goes beyond on the way. -/
def overshoot : List Operation := [.add "n" (.int 1), .add "n" (.int 1), .add "n" (.int (-1))]

/-- A record whose bin is next to the largest integer, and a job that overshoots. -/
def overshot : Moment :=
  Moment.run ⟨.empty {}, 0⟩
    [.put Moment.tallyAddress [("n", .int nearMax)] {}, .startJob ⟨⟨"test", none, none⟩, overshoot⟩]

theorem overshoot_misfits : Misfits "n" overshoot [("n", .int nearMax)] := by
  refine ⟨nearMax, rfl, fun hfits => ?_⟩
  have hroom := (hfits.room (overshoot.take 2) (List.take_prefix 2 overshoot)).2
  revert hroom
  decide

theorem additions_exact_or_refused_nearMax :
    (∃ done, applyAll upAndBack [("n", .int nearMax)] = .ok done ∧
        Exact "n" nearMax upAndBack none done) ∧
      (∃ reason, overshot.store.operate 0 Moment.tallyAddress overshoot {} =
        (.error (.parameter reason), overshot.store)) ∧
      ∃ outcome ended, overshot.Ends [.dispatch, .stepJob 1, .stepJob 1] 1 outcome ended ∧
        ∃ reason, outcome = .failed (StoreError.parameter reason).message := by
  have hops : ∀ op ∈ upAndBack, op.OnlyAdds "n" := by simp [upAndBack, OnlyAdds]
  have hops' : ∀ op ∈ overshoot, op.OnlyAdds "n" := by simp [overshoot, OnlyAdds]
  have hsorted : Ordered.Sorted [("n", Value.int nearMax)] := List.pairwise_singleton _ _
  obtain ⟨hexact, -⟩ := (additions_exact_or_refused hops).1 _ nearMax hsorted rfl
  obtain ⟨hoperate, hjob⟩ := (additions_exact_or_refused hops').2 _ _ overshot ⟨_, rfl⟩
  have hfails := hjob ⟨1, ⟨⟨"test", none, none⟩, overshoot⟩⟩ WriteCall.oneDigest
    [.dispatch, .stepJob 1, .stepJob 1] rfl (.inl (List.mem_singleton.mpr rfl)) <|
      Moment.atSteps_cons.mpr ⟨nofun, Moment.atSteps_cons.mpr
        ⟨fun _ => ⟨_, rfl, rfl, rfl, overshoot_misfits⟩, Moment.atSteps_cons.mpr
          ⟨fun _ => ⟨_, rfl, rfl, rfl, overshoot_misfits⟩, Moment.atSteps_nil⟩⟩⟩
  obtain ⟨outcome, ended, hends⟩ := hfails.ends [.dispatch] [.stepJob 1] rfl rfl (by decide)
  exact ⟨⟨_, rfl, hexact _ rfl⟩, hoperate Moment.tallyAddress {} false _ rfl rfl rfl
    overshoot_misfits, outcome, ended, hends, hfails.failed outcome ended hends⟩

end Operation
end RecordService
