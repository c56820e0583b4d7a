import RecordService.Proofs.Job.Log

/-!
# What one job does in the course of a run

From its acceptance on a job waits, works through the digests that it has found when a worker has
taken it, and ends; whatever else happens in the meantime. So it changes each of the records that
it has found at most once and in order, and the count that it reports is that of its changes.

* `Effect.isOf`: a change is one of a job.
* `Moment.Worked`, `Moment.Worked.run`: what has come of a job and of the digests that it had left,
  whatever happens. `Moment.worked_from_taking`: so it is from the first step of its worker on.
* `Moment.Waits.run`: a job waits until its worker takes that step.
* `Moment.count_of_known`: the count that is known of a job is that of its changes.
* `Moment.log_accepted`: the changes of a job from its acceptance on.
* `Moment.log_before`: it has made none before.
-/

namespace RecordService

/-- A job of a number has made the change. -/
def Effect.isOf (id : Nat) (x : Effect) : Bool :=
  match x.origin with
  | .client _ => false
  | .job job => job.id == id

/-! ## The pool -/

namespace JobPool

variable {p : JobPool} {a : ActiveJob} {id : Nat}

theorem mem_numbers_of_find? (h : p.find? id = some a) : id ∈ p.numbers :=
  List.mem_append_right _ (List.mem_map.mpr ⟨a, List.mem_of_find?_eq_some h, id_of_find? h⟩)

/-- Where no two jobs have the same number, a job is found by its own. -/
theorem find?_of_mem (h : p.numbers.Nodup) (ha : a ∈ p.active) : p.find? a.job.id = some a := by
  obtain ⟨front, back, hactive⟩ := List.append_of_mem ha
  have hnodup : (p.active.map (·.job.id)).Nodup := (List.nodup_append.mp h).2.1
  rw [hactive, List.map_append, List.map_cons] at hnodup
  have hfront : ∀ b ∈ front, ¬(b.job.id == a.job.id) = true := by
    intro b hb hid
    refine (List.nodup_append.mp hnodup).2.2 _ (List.mem_map_of_mem hb) _ List.mem_cons_self ?_
    exact eq_of_beq hid
  rw [find?, hactive, List.find?_append, List.find?_eq_none.mpr hfront, Option.none_or]
  exact List.find?_cons_of_pos (beq_self_eq_true a.job.id)

/-- A job that has left the pool has left it for good. -/
theorem not_mem_release (h : p.numbers.Nodup) (hfound : p.find? id = some a) :
    id ∉ (p.release id).numbers := by
  have hactive : id ∈ p.active.map (·.job.id) :=
    List.mem_map.mpr ⟨a, List.mem_of_find?_eq_some hfound, id_of_find? hfound⟩
  rintro hmem
  rcases List.mem_append.mp hmem with hqueue | hkept
  · exact (List.nodup_append.mp h).2.2 id hqueue id hactive rfl
  · obtain ⟨b, hb, hid⟩ := List.mem_map.mp hkept
    exact of_decide_eq_true (List.mem_filter.mp hb).2 hid

theorem find?_update_of_ne (b : ActiveJob) (h : b.job.id ≠ id) :
    (p.update b).find? id = p.find? id := by
  have hkeep : ((·.job.id == id) ∘ fun c : ActiveJob => if c.job.id = b.job.id then b else c) =
      (·.job.id == id) := by
    funext c
    by_cases hc : c.job.id = b.job.id <;> simp [hc]
  rw [find?, find?, update, List.find?_map, hkeep]
  cases hfound : p.active.find? (·.job.id == id) with
  | none => rfl
  | some c =>
    have hid : c.job.id = id := by simpa using List.find?_some hfound
    rw [Option.map_some, if_neg fun heq => h (heq.symm.trans hid)]

theorem find?_release_of_ne {id' : Nat} (h : id' ≠ id) :
    (p.release id').find? id = p.find? id := by
  rw [find?, find?, release, List.find?_filter]
  congr 1
  funext c
  by_cases hc : c.job.id = id
  · simp [hc, h.symm]
  · simp [hc]

/-- A worker keeps its job when others take some. -/
theorem find?_dispatch (h : p.find? id = some a) : p.dispatch.find? id = some a := by
  rw [find?] at h
  rw [find?, dispatch, List.find?_append, h, Option.some_or]

end JobPool

/-- The digests that a worker finds if it takes a job now. -/
def Store.candidates (now : Instant) (request : JobRequest) (s : Store) : List Digest :=
  (s.space? request.selection.ns).elim [] (request.candidates now)

namespace Moment

variable {m : Moment} {e : StoreEvent} {id : Nat} {a : ActiveJob} {job : Job}

/-! ## One event -/

/-- Only a step of its worker makes a change of a job. -/
theorem effects_of_ne (he : e ≠ .stepJob id) : (m.effects e).filter (·.isOf id) = [] := by
  refine List.filter_eq_nil_iff.mpr fun x hx => ?_
  rcases origin_of_mem_effects hx with ⟨w, -, horigin⟩ | ⟨id', a, rfl, ha, horigin⟩
  · simp only [Effect.isOf, horigin, Bool.false_eq_true, not_false_eq_true]
  · have hne : a.job.id ≠ id := fun h => he (congrArg _ ((JobPool.id_of_find? ha).symm.trans h))
    simp only [Effect.isOf, horigin, beq_iff_eq, hne, not_false_eq_true]

/-- What a worker knows of its job changes by its own steps only. -/
theorem find?_after (he : e ≠ .stepJob id) (h : m.store.pool.find? id = some a) :
    (m.after e).store.pool.find? id = some a := by
  rcases m.after_cases e with ⟨-, -, hpool⟩ | ⟨request, rfl⟩ | rfl | ⟨id', rfl⟩
  · rw [hpool, h]
  · rcases m.store.startJob_cases m.now request with
      ⟨_, s', hs', -, -, hactive, -⟩ | ⟨s', hs', -, -, hactive, -⟩
    · rw [after, hs', JobPool.find?, hactive]
      exact h
    · rw [after, hs', JobPool.find?, hactive]
      exact h
  · exact JobPool.find?_dispatch h
  · have hne : id' ≠ id := fun heq => he (heq ▸ rfl)
    rcases m.store.stepJob_kinds m.now id' with
      hs | ⟨b, spaces, -, hid, ⟨outcome, hs⟩ | ⟨left, modified, hs⟩⟩
    · rw [after, hs, h]
    · rw [after, hs]
      exact (JobPool.find?_release_of_ne hne).trans h
    · rw [after, hs]
      exact (JobPool.find?_update_of_ne _ (hid.symm ▸ hne)).trans h

/-- A job that is not in the pool makes no change. -/
theorem effects_of_gone (hgone : id ∉ m.store.pool.numbers) (e : StoreEvent) :
    (m.effects e).filter (·.isOf id) = [] := by
  by_cases he : e = .stepJob id
  · have hnone : m.store.pool.find? id = none :=
      Option.eq_none_iff_forall_ne_some.mpr fun a ha => hgone (JobPool.mem_numbers_of_find? ha)
    rw [he, effects, Store.batchEffects, hnone, List.filter_nil]
  · exact effects_of_ne he

/-! ## A job that is working -/

/-- No count is known of a job. -/
def Unreported (s : Store) (id : Nat) : Prop := ∀ j, (id, j) ∈ s.jobs → ∀ n, j.state ≠ .done n

theorem Unreported.after (h : Unreported m.store id) (hlt : id < m.store.nextJob)
    (he : e ≠ .stepJob id) : Unreported (m.after e).store id :=
  fun j hj => h j (mem_jobs_after hlt (fun heq => absurd heq he) hj)

/-- If a job that had not reported ends, what is known of it is how it has ended. -/
theorem state_of_endJob {s : Store} {now : Instant} {outcome : JobState} {j : JobEntry} {n : Nat}
    (h : Unreported s id) (hj : (id, j) ∈ (s.endJob now id outcome).jobs) (hn : j.state = .done n) :
    outcome = .done n := by
  rcases Ordered.mem_insert hj with heq | hj
  · rw [(Prod.mk.inj heq).2] at hn
    exact hn
  · exact absurd hn (h j hj n)

/-- What has come of a job, and of the digests that it had left, when it has made some changes: it
goes on, or has ended and reports their count if it reports any. -/
structure Worked (s : Store) (job : Job) (left : List Digest) (count : Nat) (xs : List Effect) :
    Prop where
  own : ∀ x ∈ xs, x.origin = .job job
  inOrder : ∃ front back, left = front ++ back ∧ (xs.map (·.digest)).Sublist front ∧
    ((s.pool.find? job.id = some ⟨job, some back, count + xs.length⟩ ∧ Unreported s job.id) ∨
      (job.id ∉ s.pool.numbers ∧
        ∀ j, (job.id, j) ∈ s.jobs → ∀ n, j.state = .done n → n = count + xs.length))

/-- A step of a worker that has digests left. -/
theorem step_working {left : List Digest} {count : Nat} (hnodup : m.store.pool.numbers.Nodup)
    (hfound : m.store.pool.find? job.id = some ⟨job, some left, count⟩)
    (hopen : Unreported m.store job.id) :
    Worked (m.store.stepJob m.now job.id) job left count (m.store.batchEffects m.now job.id) := by
  have hgone : ∀ s : Store, s.pool = m.store.pool → ∀ outcome,
      job.id ∉ (s.endJob m.now job.id outcome).pool.numbers := fun s hs outcome => by
    show job.id ∉ (s.pool.release job.id).numbers
    rw [hs]
    exact JobPool.not_mem_release hnodup hfound
  rcases m.store.stepJob_cases m.now job.id with ⟨hnone, -, -⟩ | ⟨a, ha, -, hcases⟩
  · rw [hnone] at hfound
    cases hfound
  · obtain rfl := Option.some.inj (hfound.symm.trans ha)
    rcases hcases with ⟨outcome, hstep, hnone, hdone⟩ | ⟨_, hleft, -⟩ |
      ⟨ds, rs, hleft, -, hrs, hstep, hbatch⟩
    · rw [hstep, hnone]
      refine ⟨List.forall_mem_nil _, [], left, rfl, List.nil_sublist _,
        .inr ⟨hgone _ rfl _, fun j hj n hn => ?_⟩⟩
      exact (hdone n (state_of_endJob hopen hj hn)).2
    · cases hleft
    · cases hleft
      rw [hstep, hbatch]
      refine ⟨List.forall_mem_map.mpr fun y _ => rfl, left.take m.store.batchSize,
        left.drop m.store.batchSize, (List.take_append_drop _ _).symm, ?_, ?_⟩
      · rw [List.map_map]
        exact (JobRequest.applied_count m.now job.request _ rs 0).1
      · rw [List.length_map]
        unfold Store.stepBatch
        cases hv : job.request.visitAll m.now (left.take m.store.batchSize) rs 0 with
        | mk rs' outcome =>
        have hcount :=
          (JobRequest.applied_count m.now job.request (left.take m.store.batchSize) rs 0).2
        rw [hv] at hcount
        simp only [hv]
        cases outcome with
        | error e =>
          refine .inr ⟨hgone (m.store.setSpace job.request.selection.ns rs') rfl _,
            fun j hj n hn => ?_⟩
          cases state_of_endJob (s := m.store.setSpace job.request.selection.ns rs') hopen hj hn
        | ok changed =>
          refine .inl ⟨?_, hopen⟩
          have hchanged : changed = (job.request.applied m.now _ rs).length :=
            (hcount changed rfl).trans (Nat.zero_add _)
          rw [← hchanged]
          exact JobPool.find?_update
            ⟨job, some (left.drop m.store.batchSize), count + changed⟩ hfound

theorem Worked.sublist {s : Store} {left : List Digest} {count : Nat} {xs : List Effect}
    (h : Worked s job left count xs) : (xs.map (·.digest)).Sublist left := by
  obtain ⟨-, front, back, rfl, hsub, -⟩ := h
  exact hsub.trans (List.sublist_append_left front back)

theorem Worked.reports {s : Store} {left : List Digest} {count n : Nat} {xs : List Effect}
    (h : Worked s job left count xs) {j : JobEntry} (hj : (job.id, j) ∈ s.jobs)
    (hn : j.state = .done n) : n = count + xs.length := by
  obtain ⟨-, front, back, -, -, ⟨-, hopen⟩ | ⟨-, hreports⟩⟩ := h
  · exact absurd hn (hopen j hj n)
  · exact hreports j hj n hn

theorem filter_effects {xs : List Effect} (h : ∀ x ∈ xs, x.origin = .job job) :
    xs.filter (·.isOf job.id) = xs := by
  refine List.filter_eq_self.mpr fun x hx => ?_
  rw [Effect.isOf, h x hx]
  exact beq_self_eq_true job.id

/-- A job goes on as it has begun, whatever happens. -/
theorem Worked.after {left : List Digest} {count : Nat} {xs : List Effect}
    (h : Worked m.store job left count xs) (hnumbered : m.store.Numbered)
    (hlt : job.id < m.store.nextJob) (e : StoreEvent) :
    Worked (m.after e).store job left count (xs ++ (m.effects e).filter (·.isOf job.id)) := by
  obtain ⟨hown, front, back, rfl, hsub, ⟨hfound, hopen⟩ | ⟨hgone, hreports⟩⟩ := h
  · by_cases he : e = .stepJob job.id
    · subst he
      obtain ⟨hown', front', back', rfl, hsub', hgoes⟩ := step_working hnumbered.nodup hfound hopen
      have hall : (m.effects (.stepJob job.id)).filter (·.isOf job.id) =
          m.store.batchEffects m.now job.id := filter_effects hown'
      rw [hall]
      refine ⟨fun x hx => (List.mem_append.mp hx).elim (hown x) (hown' x), front ++ front', back',
        (List.append_assoc _ _ _).symm, ?_, ?_⟩
      · rw [List.map_append]
        exact hsub.append hsub'
      · rw [List.length_append, ← Nat.add_assoc]
        exact hgoes
    · rw [effects_of_ne he, List.append_nil]
      exact ⟨hown, front, back, rfl, hsub, .inl ⟨find?_after he hfound, hopen.after hlt he⟩⟩
  · rw [effects_of_gone hgone, List.append_nil]
    exact ⟨hown, front, back, rfl, hsub, .inr ⟨not_mem_numbers_after hlt hgone e,
      fun j hj => hreports j (mem_jobs_after hlt (fun _ => hgone) hj)⟩⟩

theorem Worked.run {left : List Digest} {count : Nat} {xs : List Effect}
    (h : Worked m.store job left count xs) (hnumbered : m.store.Numbered)
    (hlt : job.id < m.store.nextJob) (events : List StoreEvent) :
    Worked (m.run events).store job left count
      (xs ++ (m.log events).filter (·.isOf job.id)) := by
  induction events generalizing m xs with
  | nil => exact (List.append_nil xs).symm ▸ h
  | cons e rest ih =>
    rw [log, List.filter_append, ← List.append_assoc]
    exact ih (h.after hnumbered hlt e) (after_numbered hnumbered e)
      (Nat.lt_of_lt_of_le hlt (m.nextJob_after e))

/-! ## A job that waits -/

/-- A job that no worker has begun to work on. -/
def Waits (s : Store) (job : Job) : Prop :=
  job ∈ s.pool.queue ∨ ({ job } : ActiveJob) ∈ s.pool.active

theorem Waits.after (h : Waits m.store job) (he : e ≠ .stepJob job.id) :
    Waits (m.after e).store job := by
  rcases m.after_cases e with ⟨-, -, hpool⟩ | ⟨request, rfl⟩ | rfl | ⟨id, rfl⟩
  · rwa [Waits, hpool]
  · rcases m.store.startJob_cases m.now request with
      ⟨_, s', hs', -, hqueue, hactive, -⟩ | ⟨s', hs', -, hqueue, hactive, -⟩
    · rw [after, hs', Waits, hqueue, hactive]
      exact h
    · rw [after, hs', Waits, hqueue, hactive]
      exact h.imp_left (List.mem_append_left _)
  · rcases h with hqueue | hactive
    · rw [← List.take_append_drop (m.store.pool.workers - m.store.pool.active.length)
        m.store.pool.queue] at hqueue
      rcases List.mem_append.mp hqueue with htaken | hleft
      · exact .inr (List.mem_append_right _ (List.mem_map_of_mem htaken))
      · exact .inl hleft
    · exact .inr (List.mem_append_left _ hactive)
  · have hne : job.id ≠ id := fun heq => he (heq ▸ rfl)
    rcases m.store.stepJob_kinds m.now id with
      hs | ⟨b, spaces, -, hid, ⟨outcome, hs⟩ | ⟨left, modified, hs⟩⟩
    · rwa [after, hs]
    · rw [after, hs]
      exact h.imp_right fun hactive => List.mem_filter.mpr ⟨hactive, decide_eq_true hne⟩
    · rw [after, hs]
      refine h.imp_right fun hactive => List.mem_map.mpr ⟨_, hactive, if_neg ?_⟩
      exact fun heq => hne (heq.trans hid)

/-- The first step of the worker of a job. -/
theorem step_waiting (hnodup : m.store.pool.numbers.Nodup)
    (hfound : m.store.pool.find? job.id = some { job }) (hopen : Unreported m.store job.id) :
    Worked (m.store.stepJob m.now job.id) job (m.store.candidates m.now job.request) 0
      (m.store.batchEffects m.now job.id) := by
  rcases m.store.stepJob_cases m.now job.id with ⟨hnone, -, -⟩ | ⟨a, ha, -, hcases⟩
  · rw [hnone] at hfound
    cases hfound
  · obtain rfl := Option.some.inj (hfound.symm.trans ha)
    rcases hcases with ⟨outcome, hstep, hnone, hdone⟩ | ⟨rs, -, hrs, hstep, hnone⟩ |
      ⟨_, _, hleft, -⟩
    · rw [hstep, hnone]
      refine ⟨List.forall_mem_nil _, [], _, rfl, List.nil_sublist _,
        .inr ⟨JobPool.not_mem_release hnodup hfound, fun j hj n hn => ?_⟩⟩
      cases (hdone n (state_of_endJob hopen hj hn)).1
    · have hcandidates :
          m.store.candidates m.now job.request = job.request.candidates m.now rs := by
        rw [Store.candidates, hrs, Option.elim_some]
      rw [hstep, hnone, hcandidates]
      exact ⟨List.forall_mem_nil _, [], _, rfl, List.nil_sublist _,
        .inl ⟨JobPool.find?_update ⟨job, some (job.request.candidates m.now rs), 0⟩ hfound, hopen⟩⟩
    · cases hleft

/-- What comes of a job from the first step of its worker on. -/
theorem worked_from_taking (hfound : m.store.pool.find? job.id = some { job })
    (hnumbered : m.store.Numbered) (hopen : Unreported m.store job.id)
    (events : List StoreEvent) :
    Worked (m.run (.stepJob job.id :: events)).store job
      (m.store.candidates m.now job.request) 0
      ((m.log (.stepJob job.id :: events)).filter (·.isOf job.id)) := by
  have hfirst := step_waiting hnumbered.nodup hfound hopen
  have hlt := hnumbered.lt job.id (List.mem_append_right _ (JobPool.mem_numbers_of_find? hfound))
  have hall : (m.effects (.stepJob job.id)).filter (·.isOf job.id) =
      m.store.batchEffects m.now job.id := filter_effects hfirst.own
  rw [log, List.filter_append, hall]
  exact Worked.run (m := m.after (.stepJob job.id)) hfirst (after_numbered hnumbered _)
    (Nat.lt_of_lt_of_le hlt (m.nextJob_after _)) events

theorem Waits.mem_numbers {s : Store} (h : Waits s job) : job.id ∈ s.pool.numbers :=
  List.mem_append.mpr (h.imp List.mem_map_of_mem List.mem_map_of_mem)

/-- A job that waits is in the queue, where no worker has it, or its worker has just taken it. -/
theorem Waits.find?_cases {s : Store} (h : Waits s job) (hnodup : s.pool.numbers.Nodup) :
    s.pool.find? job.id = none ∨ s.pool.find? job.id = some { job } := by
  rcases h with hqueue | hactive
  · refine .inl (Option.eq_none_iff_forall_ne_some.mpr fun a ha => ?_)
    refine (List.nodup_append.mp hnodup).2.2 job.id (List.mem_map_of_mem hqueue) job.id ?_ rfl
    exact List.mem_map.mpr ⟨a, List.mem_of_find?_eq_some ha, JobPool.id_of_find? ha⟩
  · exact .inr (JobPool.find?_of_mem hnodup hactive)

/-- After an event a job still waits, or the event is the first step of its worker. -/
theorem Waits.step (h : Waits m.store job) (hnodup : m.store.pool.numbers.Nodup)
    (hlt : job.id < m.store.nextJob) (hopen : Unreported m.store job.id) (e : StoreEvent) :
    ((m.effects e).filter (·.isOf job.id) = [] ∧ Waits (m.after e).store job ∧
        Unreported (m.after e).store job.id) ∨
      (e = .stepJob job.id ∧ m.store.pool.find? job.id = some { job }) := by
  by_cases he : e = .stepJob job.id
  · subst he
    rcases h.find?_cases hnodup with hnone | htaken
    · have heffects : m.effects (.stepJob job.id) = [] := by rw [effects, Store.batchEffects, hnone]
      rw [heffects, Moment.after, Store.stepJob_of_find?_none hnone]
      exact .inl ⟨rfl, h, hopen⟩
    · exact .inr ⟨rfl, htaken⟩
  · exact .inl ⟨effects_of_ne he, h.after he, hopen.after hlt he⟩

/-- What comes of a job that no worker has begun to work on: it goes on waiting; or a worker takes
it, looks for its digests, and changes records at some of them, in order. -/
theorem Waits.run (hwaits : Waits m.store job) (hnumbered : m.store.Numbered)
    (hlt : job.id < m.store.nextJob) (hopen : Unreported m.store job.id)
    (events : List StoreEvent) :
    ((m.log events).filter (·.isOf job.id) = [] ∧ Unreported (m.run events).store job.id) ∨
      ∃ front back, events = front ++ .stepJob job.id :: back ∧
        (m.log front).filter (·.isOf job.id) = [] ∧
        (m.run front).store.pool.find? job.id = some { job } ∧
        Worked (m.run events).store job
          ((m.run front).store.candidates (m.run front).now job.request) 0
          ((m.log events).filter (·.isOf job.id)) := by
  induction events generalizing m with
  | nil => exact .inl ⟨rfl, hopen⟩
  | cons e rest ih =>
    have hnumbered' := after_numbered hnumbered e
    have hlt' := Nat.lt_of_lt_of_le hlt (m.nextJob_after e)
    rcases hwaits.step hnumbered.nodup hlt hopen e with ⟨hnone, hwaits', hopen'⟩ | ⟨rfl, hfound⟩
    · have hlog : ∀ events, (m.log (e :: events)).filter (·.isOf job.id) =
          ((m.after e).log events).filter (·.isOf job.id) := fun events => by
        rw [log, List.filter_append, hnone, List.nil_append]
      rw [hlog]
      rcases ih hwaits' hnumbered' hlt' hopen' with hwaiting | ⟨front, back, rfl, hfront, htaken⟩
      · exact .inl hwaiting
      · exact .inr ⟨e :: front, back, rfl, (hlog front).trans hfront, htaken⟩
    · exact .inr ⟨[], rest, rfl, rfl, hfound, worked_from_taking hfound hnumbered hopen rest⟩

/-! ## A job from its acceptance on -/

theorem waits_of_accepted {request : JobRequest} (hnumbered : m.store.Numbered)
    (h : (m.store.startJob m.now request).1 = .ok id) :
    id = m.store.nextJob ∧ Waits (m.after (.startJob request)).store ⟨id, request⟩ ∧
      Unreported (m.after (.startJob request)).store id ∧
      id < (m.after (.startJob request)).store.nextJob := by
  rcases m.store.startJob_cases m.now request with
    ⟨e, s', hs', -⟩ | ⟨s', hs', hjobs, hqueue, -, hnext⟩
  · rw [hs'] at h
    cases h
  · rw [hs'] at h
    obtain rfl : m.store.nextJob = id := by cases h; rfl
    rw [after, hs', Waits, hqueue, hnext]
    refine ⟨rfl, .inl (List.mem_append_right _ List.mem_cons_self), fun j hj n hn => ?_,
      Nat.lt_succ_self _⟩
    rw [hjobs] at hj
    rcases Ordered.mem_insert hj with heq | hj
    · rw [(Prod.mk.inj heq).2] at hn
      cases hn
    · refine Nat.lt_irrefl m.store.nextJob (hnumbered.lt _ (List.mem_append_left _ ?_))
      exact List.mem_map_of_mem (f := (·.1)) (List.mem_filter.mp hj).1

/-- Before its acceptance a job makes no changes. -/
theorem log_before (hnumbered : m.store.Numbered) (events : List StoreEvent)
    (h : (m.run events).store.nextJob ≤ id) : (m.log events).filter (·.isOf id) = [] := by
  induction events generalizing m with
  | nil => rfl
  | cons e rest ih =>
    have hle : m.store.nextJob ≤ id := Nat.le_trans (m.nextJob_run (e :: rest)) h
    have hgone : id ∉ m.store.pool.numbers := fun hmem =>
      Nat.lt_irrefl id (Nat.lt_of_lt_of_le (hnumbered.lt id (List.mem_append_right _ hmem)) hle)
    rw [log, List.filter_append, effects_of_gone hgone, List.nil_append]
    exact ih (after_numbered hnumbered e) h

theorem candidates_pairwise (hwf : m.store.WellFormed) (request : JobRequest) :
    (m.store.candidates m.now request).Pairwise (· < ·) := by
  unfold Store.candidates
  cases hrs : m.store.space? request.selection.ns with
  | none => exact List.Pairwise.nil
  | some rs => exact List.pairwise_map.mpr ((hwf.space? hrs).sorted.filter _)

theorem mem_of_jobStatus {s : Store} {state : JobState} (h : s.jobStatus id = .ok state) :
    ∃ j, (id, j) ∈ s.jobs ∧ j.state = state := by
  obtain ⟨_, -, h⟩ := bind_eq_ok_iff.mp h
  cases hfound : Ordered.find? id s.jobs with
  | none =>
    rw [hfound] at h
    cases h
  | some j =>
    rw [hfound] at h
    cases h
    exact ⟨j, Ordered.mem_of_find? hfound, rfl⟩

/-- The changes of a job come after its acceptance. -/
theorem log_from_acceptance (hnumbered : m.store.Numbered) {before : List StoreEvent}
    {request : JobRequest}
    (h : ((m.run before).store.startJob (m.run before).now request).1 = .ok id)
    (later : List StoreEvent) :
    (m.log (before ++ .startJob request :: later)).filter (·.isOf id) =
      (((m.run before).after (.startJob request)).log later).filter (·.isOf id) := by
  obtain ⟨hid, -⟩ := waits_of_accepted (run_numbered hnumbered before) h
  rw [log_append, List.filter_append, log_before hnumbered before (Nat.le_of_eq hid.symm)]
  rfl

/-- A job that is known to be done has made as many changes as it is said to have. -/
theorem count_of_known (hnumbered : m.store.Numbered) {before later : List StoreEvent}
    {request : JobRequest} {j : JobEntry} {n : Nat}
    (h : ((m.run before).store.startJob (m.run before).now request).1 = .ok id)
    (hj : (id, j) ∈ (m.run (before ++ .startJob request :: later)).store.jobs)
    (hn : j.state = .done n) :
    n = ((m.log (before ++ .startJob request :: later)).filter (·.isOf id)).length := by
  have hnumbered' := run_numbered hnumbered before
  obtain ⟨-, hwaits, hopen, hlt⟩ := waits_of_accepted hnumbered' h
  rw [log_from_acceptance hnumbered h]
  rw [run_append] at hj
  rcases hwaits.run (after_numbered hnumbered' _) hlt hopen later with
    ⟨-, hopen'⟩ | ⟨_, _, -, -, -, hworked⟩
  · exact absurd hn (hopen' j hj n)
  · exact (hworked.reports hj hn).trans (Nat.zero_add _)

/-- Of a job that is accepted in the course of a run: its changes are at some of the digests of the
live records of its set when a worker takes it, in ascending order and each at most once; and if it
is reported to be done, the count is that of its changes. -/
theorem log_accepted (hwf : m.store.WellFormed) (hnumbered : m.store.Numbered)
    {before later : List StoreEvent} {request : JobRequest}
    (h : ((m.run before).store.startJob (m.run before).now request).1 = .ok id) :
    let events := before ++ .startJob request :: later
    let mine := (m.log events).filter (·.isOf id)
    (∀ x ∈ mine, x.origin = .job ⟨id, request⟩) ∧
      (mine.map (·.digest)).Pairwise (· < ·) ∧
      (mine = [] ∨ ∃ front back, later = front ++ .stepJob id :: back ∧
        let start := m.run (before ++ .startJob request :: front)
        (m.log (before ++ .startJob request :: front)).filter (·.isOf id) = [] ∧
          start.store.pool.find? id = some { job := ⟨id, request⟩ } ∧
          (mine.map (·.digest)).Sublist (start.store.candidates start.now request)) ∧
      ∀ n, (m.run events).store.jobStatus id = .ok (.done n) → n = mine.length := by
  have hnumbered' := run_numbered hnumbered before
  obtain ⟨-, hwaits, hopen, hlt⟩ := waits_of_accepted hnumbered' h
  have hcount : ∀ n, (m.run (before ++ .startJob request :: later)).store.jobStatus id =
      .ok (.done n) → n = ((m.log (before ++ .startJob request :: later)).filter
        (·.isOf id)).length := fun n hn => by
    obtain ⟨j, hj, hstate⟩ := mem_of_jobStatus hn
    exact count_of_known hnumbered h hj hstate
  have hrun : ∀ events, m.run (before ++ .startJob request :: events) =
      ((m.run before).after (.startJob request)).run events := fun events =>
    m.run_append before (.startJob request :: events)
  simp only [log_from_acceptance hnumbered h, hrun] at hcount ⊢
  rcases hwaits.run (after_numbered hnumbered' _) hlt hopen later with
    ⟨hnone, -⟩ | ⟨front, back, rfl, hfront, hfound, hworked⟩
  · rw [hnone] at hcount ⊢
    exact ⟨List.forall_mem_nil _, List.Pairwise.nil, .inl rfl, hcount⟩
  · have hascending : (((((m.run before).after (.startJob request)).run front).store.candidates
        (((m.run before).after (.startJob request)).run front).now request)).Pairwise (· < ·) :=
      candidates_pairwise (run_wellFormed (after_wellFormed (run_wellFormed hwf before) _) front) _
    exact ⟨hworked.own, hascending.sublist hworked.sublist,
      .inr ⟨front, back, rfl, hfront, hfound, hworked.sublist⟩, hcount⟩

end Moment
end RecordService
