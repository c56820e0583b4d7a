import RecordService.Proofs.Job.History
import RecordService.Proofs.Job.Operates

/-!
# Counting in the presence of jobs

Where all writes add integers, no increment is lost and none counts twice, whatever jobs and clients
do in between: a bin holds what it held before and the increments of all changes of its record. Only
a write that finds no live record begins anew, from nothing.

* `AddsUp`: from one value of a bin to another by increments.
* `Operation.addsUp_applyFrom`: operations that add. `Effect.Valid.addsUp`: a change that adds.
* `Store.Replays.addsUp`: a log of changes that add.
* `Moment.jobs_lose_no_update`: what jobs and clients do to records, in any order.
* `Moment.adds_begin_anew`: an increment is forgotten when its record expires.
-/

namespace RecordService

/-- The sum of integers, without bounds. -/
def sumOf (ks : List Int64) : Int := ks.foldr (fun k n => k.toInt + n) 0

/-- A bin that has gone from one value to another by increments: it had none and is as before, or it
was missing or an integer, and the increments have been added up. -/
def AddsUp (before : Option Value) (ks : List Int64) (after : Option Value) : Prop :=
  (ks = [] ∧ after = before) ∨
    (before = none ∧ ∃ n, after = some (.int n) ∧ n.toInt = sumOf ks) ∨
    ∃ a n, before = some (.int a) ∧ after = some (.int n) ∧ n.toInt = a.toInt + sumOf ks

theorem sumOf_append (ks ks' : List Int64) : sumOf (ks ++ ks') = sumOf ks + sumOf ks' := by
  induction ks with
  | nil => exact (Int.zero_add _).symm
  | cons k rest ih =>
    show k.toInt + sumOf (rest ++ ks') = k.toInt + sumOf rest + sumOf ks'
    rw [ih, Int.add_assoc]

theorem AddsUp.refl (v : Option Value) : AddsUp v [] v := .inl ⟨rfl, rfl⟩

theorem AddsUp.trans {v v' v'' : Option Value} {ks ks' : List Int64} (h : AddsUp v ks v')
    (h' : AddsUp v' ks' v'') : AddsUp v (ks ++ ks') v'' := by
  rcases h with ⟨rfl, rfl⟩ | ⟨rfl, n, rfl, hn⟩ | ⟨a, n, rfl, rfl, hn⟩
  · exact h'
  · rcases h' with ⟨rfl, rfl⟩ | ⟨hnone, -⟩ | ⟨b, k, hb, rfl, hk⟩
    · rw [List.append_nil]
      exact .inr (.inl ⟨rfl, n, rfl, hn⟩)
    · cases hnone
    · cases hb
      exact .inr (.inl ⟨rfl, k, rfl, by rw [hk, hn, sumOf_append]⟩)
  · rcases h' with ⟨rfl, rfl⟩ | ⟨hnone, -⟩ | ⟨b, k, hb, rfl, hk⟩
    · rw [List.append_nil]
      exact .inr (.inr ⟨a, n, rfl, rfl, hn⟩)
    · cases hnone
    · cases hb
      exact .inr (.inr ⟨a, k, rfl, rfl, by rw [hk, hn, sumOf_append, Int.add_assoc]⟩)

/-! ## Operations -/

namespace Operation

variable {op : Operation} {ops : List Operation} {p q : Progress} {bin : String}

/-- Whether an operation adds an integer, or only reports. -/
def addsInteger : Operation → Bool
  | add _ (.int _) => true
  | op => op.isRead

/-- What an operation adds to a bin. -/
def increment? (bin : String) : Operation → Option Int64
  | add b (.int k) => if b = bin then some k else none
  | _ => none

/-- What operations add to a bin, one after the other. -/
def increments (bin : String) (ops : List Operation) : List Int64 := ops.filterMap (increment? bin)

theorem toInt_of_sum? {a b s : Int64} (h : sum? a b = some s) : s.toInt = a.toInt + b.toInt := by
  simp only [sum?] at h
  split at h
  · rename_i hrange
    cases h
    exact Int64.toInt_ofInt_of_le hrange.1 hrange.2
  · cases h

/-- An addition to an integer is one of an integer, and leads to the sum. -/
theorem added_to_integer {a : Int64} {v w : Value} (h : added bin (some (.int a)) v = .ok w) :
    ∃ k n : Int64, v = .int k ∧ w = .int n ∧ n.toInt = a.toInt + k.toInt := by
  cases v with
  | int k =>
    simp only [added] at h
    cases hs : sum? a k with
    | none =>
      rw [hs] at h
      cases h
    | some n =>
      rw [hs] at h
      cases h
      exact ⟨k, n, rfl, rfl, toInt_of_sum? hs⟩
  | _ => cases h

/-- An addition leads from a missing bin to its increment, and from an integer to the sum. -/
theorem added_integer {existing : Option Value} {k : Int64} {v : Value}
    (h : added bin existing (.int k) = .ok v) : AddsUp existing [k] (some v) := by
  have hone : sumOf [k] = k.toInt := Int.add_zero _
  cases existing with
  | none =>
    cases h
    exact .inr (.inl ⟨rfl, k, rfl, hone.symm⟩)
  | some w =>
    cases w with
    | int a =>
      obtain ⟨_, n, hk, rfl, hn⟩ := added_to_integer h
      cases hk
      exact .inr (.inr ⟨a, n, rfl, rfl, by rw [hn, hone]⟩)
    | _ => cases h

theorem addsUp_apply (hop : op.addsInteger) (h : apply p op = .ok q) (bin : String) :
    AddsUp (Ordered.find? bin p.bins) (increment? bin op).toList (Ordered.find? bin q.bins) := by
  cases op with
  | add b value =>
    cases value with
    | int k =>
      obtain ⟨v, hv, rfl⟩ := map_eq_ok_iff.mp h
      by_cases hb : b = bin
      · subst hb
        rw [increment?, if_pos rfl, Ordered.find?_insert, if_pos rfl]
        exact added_integer hv
      · rw [increment?, if_neg hb, Ordered.find?_insert, if_neg (Ne.symm hb)]
        exact .refl _
    | _ => cases hop
  | read b =>
    simp only [apply] at h
    split at h <;> cases h <;> exact .refl _
  | get =>
    cases h
    exact .refl _
  | _ => cases hop

theorem increments_cons (bin : String) (op : Operation) (rest : List Operation) :
    increments bin (op :: rest) = (increment? bin op).toList ++ increments bin rest := by
  unfold increments
  cases hk : increment? bin op with
  | none => rw [List.filterMap_cons_none hk, Option.toList_none, List.nil_append]
  | some k => rw [List.filterMap_cons_some hk, Option.toList_some, List.singleton_append]

/-- Operations that add lead from one value of a bin to another by their increments. -/
theorem addsUp_applyFrom (hops : ops.all addsInteger) (h : applyFrom p ops = .ok q)
    (bin : String) :
    AddsUp (Ordered.find? bin p.bins) (increments bin ops) (Ordered.find? bin q.bins) := by
  induction ops generalizing p with
  | nil =>
    cases h
    exact .refl _
  | cons op rest ih =>
    obtain ⟨hop, hrest⟩ := Bool.and_eq_true_iff.mp (List.all_cons ▸ hops)
    obtain ⟨p', hp, hq⟩ := bind_eq_ok_iff.mp h
    rw [increments_cons]
    exact (addsUp_apply hop hp bin).trans (ih hrest hq)

/-- Operations that add nothing to any bin if they only report. -/
theorem increments_of_reads (h : ops.any (!·.isRead) = false) (bin : String) :
    increments bin ops = [] := by
  refine List.filterMap_eq_nil_iff.mpr fun op hop => ?_
  have hread : op.isRead = true := by simpa using List.any_eq_false.mp h op hop
  cases op <;> first | rfl | cases hread

end Operation

/-! ## Changes -/

namespace Effect

/-- The operations that have led to a change. -/
def ops (x : Effect) : List Operation :=
  match x.origin with
  | .client (.operate _ ops _) => ops
  | .client _ => []
  | .job job => job.request.ops

/-- The change is made by operations that add integers. -/
def OnlyAdds (x : Effect) : Prop :=
  match x.origin with
  | .client (.operate _ ops _) => ops.all Operation.addsInteger
  | .client _ => False
  | .job job => job.request.ops.all Operation.addsInteger

end Effect

/-- What is stored in a bin of the record at a digest. -/
def Store.bin? (s : Store) (ns : String) (d : Digest) (bin : String) : Option Value :=
  (s.record? ns d).bind fun r => Ordered.find? bin r.bins

/-- What a change by operations has found in a bin. -/
def Effect.before (x : Effect) (bin : String) : Option Value :=
  x.found.bind fun r => Ordered.find? bin r.bins

namespace Effect

variable {s : Store} {x : Effect} {bin : String}

/-- A change has found what is stored, if it has found a record. -/
theorem Valid.before_eq (h : x.Valid s) (bin : String) (hfound : x.found.isSome) :
    x.before bin = s.bin? x.ns x.digest bin := by
  obtain ⟨r, hr⟩ := Option.isSome_iff_exists.mp hfound
  obtain ⟨hsome, hlive, -⟩ := h
  obtain ⟨rs, hrs⟩ := Option.isSome_iff_exists.mp hsome
  rw [Store.live?, hrs, Option.bind_some, hr] at hlive
  have hstored : Ordered.find? x.digest rs = some r := (Option.filter_eq_some_iff.mp hlive).1
  rw [before, hr, Store.bin?, Store.record?, hrs, Option.bind_some, Option.bind_some, hstored,
    Option.bind_some]

/-- What is stored after a change that keeps, removes or replaces what it has found. -/
theorem bin?_replay (hwf : s.WellFormed) (hsome : (s.space? x.ns).isSome) (bin : String) :
    (x.replay s).bin? x.ns x.digest bin =
      match x.change with
      | .keep => s.bin? x.ns x.digest bin
      | .remove => none
      | .store r => Ordered.find? bin r.bins := by
  obtain ⟨rs, hrs⟩ := Option.isSome_iff_exists.mp hsome
  rw [Store.bin?, record?_replay hrs, Store.bin?, Store.record?, hrs, Option.bind_some]
  cases x.change with
  | keep => rfl
  | remove => rw [Records.change, Ordered.find?_erase (hwf.space? hrs).sorted, if_pos rfl]; rfl
  | store r => rw [Records.change, Ordered.find?_insert, if_pos rfl]; rfl

/-- A change by operations that add leads from what it has found to what it leaves by its
increments. -/
theorem Valid.addsUp (h : x.Valid s) (hwf : s.WellFormed) (hadds : x.OnlyAdds) (bin : String) :
    AddsUp (x.before bin) (Operation.increments bin x.ops)
      ((x.replay s).bin? x.ns x.digest bin) := by
  have hafter := bin?_replay hwf h.1 bin
  have hbefore := h.before_eq bin
  obtain ⟨-, -, horigin⟩ := h
  obtain ⟨origin, now, ns, d, found, change⟩ := x
  cases origin with
  | client w =>
    obtain ⟨-, -, a, hdecide⟩ := horigin
    cases w with
    | put => exact hadds.elim
    | delete => exact hadds.elim
    | operate address ops options =>
      obtain ⟨⟨answer, c⟩, hoperate, hc⟩ := map_eq_ok_iff.mp hdecide
      obtain rfl : c = change := (Prod.mk.inj hc).2
      have hoperate : Cell.operate now address address.digest ops options found =
          .ok (answer, c) := hoperate
      obtain ⟨hcheck, done, hdone, hcases⟩ := Cell.operate_cases hoperate
      have hup := Operation.addsUp_applyFrom hadds hdone bin
      have hstart : before ⟨.client (.operate address ops options), now, ns, d, found, c⟩ bin =
          Ordered.find? bin (found.getD (Cell.fresh address)).bins := by cases found <;> rfl
      rcases hcases with ⟨hreads, rfl⟩ | ⟨-, hempty, rfl⟩ | ⟨-, -, rfl⟩
      · -- Operations that only report find a record.
        have hany : ops.any (!·.isRead) = false :=
          (Operation.applyFrom_modified hdone).symm.trans hreads
        have hfound : found.isSome := by
          cases found with
          | some r => rfl
          | none => simp [Cell.checkOperate, Cell.creates, hany] at hcheck
        rw [hafter, hbefore hfound]
        exact Operation.increments_of_reads hany bin ▸ .refl _
      · rw [hafter, hstart]
        rw [hempty] at hup
        exact hup
      · rw [hafter, hstart]
        exact hup
  | job job =>
    obtain ⟨-, r, done, rfl, -, hdone, rfl⟩ := horigin
    have hup := Operation.addsUp_applyFrom hadds hdone bin
    rw [hafter]
    by_cases hempty : done.bins.isEmpty
    · rw [List.isEmpty_iff.mp hempty] at hup
      simp only [hempty, if_true]
      exact hup
    · simp only [hempty, Bool.false_eq_true, if_false]
      exact hup

end Effect

/-! ## Logs -/

/-- What changes have added to a bin of the record at a digest, one after the other. -/
def incrementsAt (ns : String) (d : Digest) (bin : String) (xs : List Effect) : List Int64 :=
  (xs.filter (·.isAt ns d)).flatMap fun x => Operation.increments bin x.ops

theorem incrementsAt_cons (ns : String) (d : Digest) (bin : String) (x : Effect)
    (xs : List Effect) :
    incrementsAt ns d bin (x :: xs) =
      (if x.isAt ns d then Operation.increments bin x.ops else []) ++ incrementsAt ns d bin xs := by
  unfold incrementsAt
  cases hx : x.isAt ns d with
  | true => rw [List.filter_cons_of_pos hx, List.flatMap_cons, if_pos rfl]
  | false =>
    rw [List.filter_cons_of_neg (by simp [hx]), if_neg Bool.false_ne_true, List.nil_append]

namespace Store

variable {s t : Store} {xs : List Effect} {ns bin : String} {d : Digest}

theorem bin?_of_spaces (h : s.spaces = t.spaces) : s.bin? ns d bin = t.bin? ns d bin := by
  rw [bin?, record?, space?, h]
  rfl

/-- In a log of changes that add, of which those at a digest have all found a live record, a bin of
that record counts from what it was. -/
theorem Replays.addsUp (h : s.Replays xs) (hwf : s.WellFormed) (hadds : ∀ x ∈ xs, x.OnlyAdds)
    (hfound : ∀ x ∈ xs, x.isAt ns d → x.found.isSome) (bin : String) :
    AddsUp (s.bin? ns d bin) (incrementsAt ns d bin xs)
      ((xs.foldl Effect.replay s).bin? ns d bin) := by
  induction xs generalizing s with
  | nil => exact .refl _
  | cons x rest ih =>
    obtain ⟨hadd, hadds⟩ := List.forall_mem_cons.mp hadds
    obtain ⟨hsome, hfound⟩ := List.forall_mem_cons.mp hfound
    have hrest := ih h.2 (h.1.wellFormed hwf) hadds hfound
    rw [incrementsAt_cons, List.foldl_cons]
    cases hx : x.isAt ns d with
    | false =>
      rw [if_neg Bool.false_ne_true, List.nil_append]
      rwa [bin?, Effect.record?_replay_of_ne hx] at hrest
    | true =>
      rw [if_pos rfl]
      obtain ⟨hns, hd⟩ := Bool.and_eq_true_iff.mp hx
      obtain rfl := eq_of_beq hns
      obtain rfl := eq_of_beq hd
      have hup := h.1.addsUp hwf hadd bin
      rw [h.1.before_eq bin (hsome hx)] at hup
      exact hup.trans hrest

/-- A change that has found no live record begins anew: a bin counts from nothing. -/
theorem Replays.addsUp_anew {x : Effect} (h : s.Replays (x :: xs)) (hwf : s.WellFormed)
    (hadds : ∀ y ∈ x :: xs, y.OnlyAdds) (hx : x.isAt ns d) (hnone : x.found = none)
    (hfound : ∀ y ∈ xs, y.isAt ns d → y.found.isSome) (bin : String) :
    AddsUp none (incrementsAt ns d bin (x :: xs))
      (((x :: xs).foldl Effect.replay s).bin? ns d bin) := by
  obtain ⟨hadd, hadds⟩ := List.forall_mem_cons.mp hadds
  have hrest := h.2.addsUp (h.1.wellFormed hwf) hadds hfound bin
  have hup := h.1.addsUp hwf hadd bin
  rw [Effect.before, hnone, Option.bind_none] at hup
  obtain ⟨hns, hd⟩ := Bool.and_eq_true_iff.mp hx
  obtain rfl := eq_of_beq hns
  obtain rfl := eq_of_beq hd
  rw [incrementsAt_cons, if_pos hx, List.foldl_cons]
  exact hup.trans hrest

end Store

/-! ## Runs -/

/-- An event that writes only adds integers, and so does a job that is accepted. -/
def StoreEvent.OnlyAdds : StoreEvent → Prop
  | .put .. | .delete .. => False
  | .operate _ ops _ => ops.all Operation.addsInteger
  | .startJob request => request.ops.all Operation.addsInteger
  | _ => True

/-- The jobs that wait or run only add integers. -/
structure JobPool.OnlyAdds (p : JobPool) : Prop where
  queue : ∀ job ∈ p.queue, job.request.ops.all Operation.addsInteger
  active : ∀ a ∈ p.active, a.job.request.ops.all Operation.addsInteger

namespace Moment

variable {m : Moment} {e : StoreEvent}

theorem after_onlyAdds (h : m.store.pool.OnlyAdds) (he : e.OnlyAdds) :
    (m.after e).store.pool.OnlyAdds := by
  rcases m.after_cases e with ⟨-, -, hpool⟩ | ⟨request, rfl⟩ | rfl | ⟨id, rfl⟩
  · rwa [hpool]
  · rcases m.store.startJob_cases m.now request with
      ⟨_, s', hs', -, hqueue, hactive, -⟩ | ⟨s', hs', -, hqueue, hactive, -⟩
    · rw [after, hs']
      exact ⟨hqueue ▸ h.queue, hactive ▸ h.active⟩
    · rw [after, hs']
      refine ⟨?_, hactive ▸ h.active⟩
      rw [hqueue]
      exact List.forall_mem_append.mpr ⟨h.queue, List.forall_mem_singleton.mpr he⟩
  · refine ⟨fun job hjob => h.queue job (List.mem_of_mem_drop hjob), ?_⟩
    refine List.forall_mem_append.mpr ⟨h.active, List.forall_mem_map.mpr fun job hjob => ?_⟩
    exact h.queue job (List.mem_of_mem_take hjob)
  · rcases m.store.stepJob_kinds m.now id with
      hs | ⟨a, spaces, hfound, -, ⟨outcome, hs⟩ | ⟨left, modified, hs⟩⟩
    · rwa [after, hs]
    · rw [after, hs]
      exact ⟨h.queue, fun b hb => h.active b (List.mem_filter.mp hb).1⟩
    · rw [after, hs]
      refine ⟨h.queue, List.forall_mem_map.mpr fun b hb => ?_⟩
      split
      · exact h.active a (List.mem_of_find?_eq_some hfound)
      · exact h.active b hb

theorem effects_onlyAdd (h : m.store.pool.OnlyAdds) (he : e.OnlyAdds) :
    ∀ x ∈ m.effects e, x.OnlyAdds := by
  intro x hx
  unfold Effect.OnlyAdds
  rcases origin_of_mem_effects hx with ⟨w, hw, horigin⟩ | ⟨id, a, -, ha, horigin⟩
  · rw [horigin]
    cases e with
    | operate address ops options =>
      cases hw
      exact he
    | put | delete => exact he.elim
    | _ => cases hw
  · rw [horigin]
    exact h.active a (List.mem_of_find?_eq_some ha)

theorem log_onlyAdd (h : m.store.pool.OnlyAdds) {events : List StoreEvent}
    (hevents : ∀ e ∈ events, e.OnlyAdds) : ∀ x ∈ m.log events, x.OnlyAdds := by
  induction events generalizing m with
  | nil => exact List.forall_mem_nil _
  | cons e rest ih =>
    obtain ⟨he, hrest⟩ := List.forall_mem_cons.mp hevents
    exact List.forall_mem_append.mpr ⟨effects_onlyAdd h he, ih (after_onlyAdds h he) hrest⟩

/-- What jobs and clients do to records, in any order and with the clock set in between. All of it
is a sequence of changes of single records, each decided on the record as those before it have left
it; a job applies its operations once to a live record that passes its filter, and counts the
generation up by one. A write of a client that is not refused is one change. The changes of a job
are at digests of the live records that it has found when a worker has taken it, in ascending order
and each at most once, and the count that it reports is that of its changes. Where all writes add
integers, a bin ends at what it was and every increment of every change of its record; a change that
has found no live record begins anew, and the bin counts from there. -/
theorem jobs_lose_no_update {settings : StoreSettings} {start : Instant}
    (hm : Reaches ⟨.empty settings, start⟩ m) (events : List StoreEvent) :
    (m.store.Replays (m.log events) ∧
        ((m.log events).foldl Effect.replay m.store).spaces = (m.run events).store.spaces) ∧
      (∀ before e later w, events = before ++ e :: later → e.write? = some w →
        let m' := m.run before
        (∃ x, m'.effects e = [x] ∧ x.origin = .client w) ∨
          (m'.effects e = [] ∧ ∃ why, w.run m'.now m'.store = (.error why, m'.store))) ∧
      (∀ before request later id, events = before ++ .startJob request :: later →
        ((m.run before).store.startJob (m.run before).now request).1 = .ok id →
        let mine := (m.log events).filter (·.isOf id)
        (∀ x ∈ mine, x.origin = .job ⟨id, request⟩) ∧
          (mine.map (·.digest)).Pairwise (· < ·) ∧
          (mine = [] ∨ ∃ front back, later = front ++ .stepJob id :: back ∧
            let taken := m.run (before ++ .startJob request :: front)
            (m.log (before ++ .startJob request :: front)).filter (·.isOf id) = [] ∧
              taken.store.pool.find? id = some { job := ⟨id, request⟩ } ∧
              (mine.map (·.digest)).Sublist (taken.store.candidates taken.now request)) ∧
          ∀ n, (m.run events).store.jobStatus id = .ok (.done n) → n = mine.length) ∧
      (m.store.pool.OnlyAdds → (∀ e ∈ events, e.OnlyAdds) → ∀ ns d bin,
        ((∀ x ∈ m.log events, x.isAt ns d → x.found.isSome) →
          AddsUp (m.store.bin? ns d bin) (incrementsAt ns d bin (m.log events))
            ((m.run events).store.bin? ns d bin)) ∧
        ∀ front x back, m.log events = front ++ x :: back → x.isAt ns d → x.found = none →
          (∀ y ∈ back, y.isAt ns d → y.found.isSome) →
          AddsUp none (incrementsAt ns d bin (x :: back))
            ((m.run events).store.bin? ns d bin)) := by
  have hwf : m.store.WellFormed := hm.wellFormed_of_empty
  have hnumbered : m.store.Numbered := by
    obtain ⟨past, rfl⟩ := hm
    exact run_numbered (Store.empty_numbered settings) past
  obtain ⟨hreplays, hspaces⟩ := run_replays hwf events
  refine ⟨⟨hreplays, hspaces⟩, ?_, ?_, ?_⟩
  · intro before e later w _ hw m'
    rw [(after_write (m := m') hw).2]
    rcases w.effects_cases m'.now m'.store with
      ⟨why, hrun, hnone⟩ | ⟨_, _, _, _, -, -, hone, -⟩
    · exact .inr ⟨hnone, why, hrun⟩
    · exact .inl ⟨_, hone, rfl⟩
  · rintro before request later id rfl haccepted
    exact log_accepted hwf hnumbered haccepted
  · intro hpool hevents ns d bin
    have hadds := log_onlyAdd hpool hevents
    rw [← Store.bin?_of_spaces hspaces]
    refine ⟨fun hfound => hreplays.addsUp hwf hadds hfound bin, ?_⟩
    intro front x back hlog hx hnone hfound
    rw [hlog] at hreplays hadds ⊢
    rw [List.foldl_append]
    exact hreplays.of_append.addsUp_anew ((hreplays.of_prefix).wellFormed hwf)
      (fun y hy => hadds y (List.mem_append_right _ hy)) hx hnone hfound bin

/-! ### A job between two clients -/

/-- Where the one record of the examples is. -/
def tallyAddress : Address := ⟨"test", none, .digest WriteCall.oneDigest⟩

/-- A client that adds to the record. -/
def addOnce (k : Int64) (options : WriteOptions) : StoreEvent :=
  .operate tallyAddress [.add "n" (.int k)] options

/-- A job that adds ten. -/
def addTen : JobRequest := ⟨⟨"test", none, none⟩, [.add "n" (.int 10)]⟩

/-- A client adds between the two steps in which the job looks for the record and changes it. -/
def jobBetweenClients : List StoreEvent :=
  [addOnce 1 {}, .startJob addTen, .dispatch, .stepJob 1, addOnce 100 {}, .stepJob 1, .stepJob 1]

theorem jobBetweenClients_onlyAdds : ∀ e ∈ jobBetweenClients, e.OnlyAdds := by
  simp [jobBetweenClients, addOnce, addTen, StoreEvent.OnlyAdds, Operation.addsInteger]

theorem idle_onlyAdds (settings : StoreSettings) : (Store.empty settings).pool.OnlyAdds :=
  ⟨List.forall_mem_nil _, List.forall_mem_nil _⟩

/-- All three increments are there, and the job reports its one change. -/
theorem jobs_lose_no_update_jobBetweenClients :
    let m : Moment := ⟨.empty {}, 0⟩
    AddsUp none [1, 100, 10]
        ((m.run jobBetweenClients).store.bin? "test" WriteCall.oneDigest "n") ∧
      1 = ((m.log jobBetweenClients).filter (·.isOf 1)).length := by
  obtain ⟨-, -, hjobs, hadds⟩ :=
    jobs_lose_no_update (m := ⟨.empty {}, 0⟩) ⟨[], rfl⟩ jobBetweenClients
  obtain ⟨-, -, -, hdone⟩ := hjobs [addOnce 1 {}] addTen _ 1 rfl rfl
  obtain ⟨-, hanew⟩ := hadds (idle_onlyAdds {}) jobBetweenClients_onlyAdds "test"
    WriteCall.oneDigest "n"
  refine ⟨hanew [] _ _ rfl rfl rfl ?_, hdone 1 rfl⟩
  exact List.forall_mem_cons.mpr ⟨fun _ => rfl, List.forall_mem_singleton.mpr fun _ => rfl⟩

/-- Where a record expires between two additions, a bin does not end at the sum of both. -/
theorem adds_begin_anew :
    ¬∀ (m : Moment), Reaches ⟨.empty {}, 0⟩ m → m.store.pool.OnlyAdds →
      ∀ events, (∀ e ∈ events, e.OnlyAdds) → ∀ ns d bin,
        AddsUp (m.store.bin? ns d bin) (incrementsAt ns d bin (m.log events))
          ((m.run events).store.bin? ns d bin) := by
  intro h
  have hadds : ∀ e ∈ [addOnce 5 { ttl := some 1 }, .clock 2000, addOnce 7 {}], e.OnlyAdds := by
    simp [addOnce, StoreEvent.OnlyAdds, Operation.addsInteger]
  have hup := h ⟨.empty {}, 0⟩ ⟨[], rfl⟩ (idle_onlyAdds {}) _ hadds "test" WriteCall.oneDigest "n"
  have hsum : AddsUp none [5, 7] (some (.int 7)) := hup
  rcases hsum with ⟨hnil, -⟩ | ⟨-, n, hn, htotal⟩ | ⟨a, n, hnone, -⟩
  · cases hnil
  · cases hn
    revert htotal
    decide
  · cases hnone

end Moment
end RecordService
