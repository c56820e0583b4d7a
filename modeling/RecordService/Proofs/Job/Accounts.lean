import Mathlib.Data.List.Nodup
import RecordService.Proofs.Job.Submission

/-!
# The accounts of the jobs

The numbers that submissions have been given, the table of jobs, the queue and the workers belong
together at all times, in whatever order submissions and workers take their steps.

* `JobDesk.Numbering`: every number that has been given is in one place.
* `JobDesk.Order`: jobs start in the order in which they have been accepted, each once.
* `JobDesk.Table`: what the store knows of the jobs is what has come of them.
* `Numbering.turn`, `Order.turn`, `Table.turn`: all that can happen keeps it so.
* `JobTraffic.Accounted`, `JobTraffic.accounted_at_all_times`: what this means for those who submit
  jobs and ask about them.
-/

namespace RecordService

namespace JobPool

variable {p : JobPool} {a : ActiveJob} {id : Nat}

/-- To free the worker of a job takes this job from those that run, and no other. -/
theorem active_release (h : p.numbers.Nodup) (hfound : p.find? id = some a) :
    (p.active.map (·.job.id)).Perm (id :: (p.release id).active.map (·.job.id)) := by
  have hnodup : (p.active.map (·.job.id)).Nodup := (List.nodup_append.mp h).2.1
  have hmem : id ∈ p.active.map (·.job.id) :=
    List.mem_map.mpr ⟨a, List.mem_of_find?_eq_some hfound, id_of_find? hfound⟩
  have hkept : (p.release id).active.map (·.job.id) = (p.active.map (·.job.id)).erase id := by
    rw [hnodup.erase_eq_filter, List.filter_map, release]
    exact congrArg _ (List.filter_congr fun b _ => by simp [bne, Bool.beq_eq_decide_eq])
  rw [hkept]
  exact List.perm_cons_erase hmem

end JobPool

namespace JobDesk

variable {settings : StoreSettings} {now : Instant} {d d' : JobDesk} {h notes : JobHistory}

/-! ## Numbers -/

/-- Where numbers are: in the hands of a submission, or with a job that waits, runs, has ended or
was refused. -/
def places (d : JobDesk) (h : JobHistory) : List Nat :=
  (d.pending ++ d.pool.numbers) ++ (h.ended.map (·.1) ++ h.refused)

/-- Every number that has been given is in one place. -/
structure Numbering (d : JobDesk) (h : JobHistory) : Prop where
  ascending : h.numbered.Pairwise (· < ·)
  given : ∀ n ∈ h.numbered, n < d.nextJob
  dealt : h.numbered.Perm (d.places h)

/-- Jobs are entered for submissions that have not been answered. -/
theorem listed_sublist (d : JobDesk) : d.listed.Sublist d.pending := by
  have hcall : ∀ call : Submission, call.listed.Sublist call.pending := by
    intro call
    cases call with
    | entered | staffed | turnedAway => exact List.Sublist.refl _
    | begun | checked | swept | numbered | answered => exact List.nil_sublist _
  unfold listed pending
  induction d.calls with
  | nil => exact List.Sublist.refl _
  | cons call rest ih =>
    rw [List.flatMap_cons, List.flatMap_cons]
    exact (hcall call).append ih

namespace Numbering

theorem nodup (hn : Numbering d h) : (d.places h).Nodup :=
  hn.dealt.nodup_iff.mp (hn.ascending.imp Nat.ne_of_lt)

theorem pool_nodup (hn : Numbering d h) : d.pool.numbers.Nodup :=
  (List.nodup_append.mp (List.nodup_append.mp hn.nodup).1).2.1

theorem underway_nodup (hn : Numbering d h) : (d.listed ++ d.pool.numbers).Nodup :=
  (d.listed_sublist.append_right _).nodup (List.nodup_append.mp hn.nodup).1

/-- A job whose submission has not been answered, or that waits or runs, has neither ended nor been
refused. -/
theorem not_mem_settled (hn : Numbering d h) {n : Nat} (hmem : n ∈ d.pending ++ d.pool.numbers) :
    n ∉ h.ended.map (·.1) ++ h.refused :=
  fun hsettled => (List.nodup_append.mp hn.nodup).2.2 n hmem n hsettled rfl

/-- A turn that gives no number keeps the numbering, if each number is in one place as before. -/
theorem of_places (hn : Numbering d h) (hnumbered : notes.numbered = [])
    (hnext : d'.nextJob = d.nextJob)
    (hplaces : ∀ n, (d'.places (h ++ notes)).count n = (d.places h).count n) :
    Numbering d' (h ++ notes) := by
  refine ⟨?_, ?_, List.perm_iff_count.mpr fun n => ?_⟩
  · rw [JobHistory.numbered_append, hnumbered, List.append_nil]
    exact hn.ascending
  · rw [JobHistory.numbered_append, hnumbered, List.append_nil, hnext]
    exact hn.given
  · rw [JobHistory.numbered_append, hnumbered, List.append_nil, hplaces]
    exact hn.dealt.count_eq n

theorem turn (hn : Numbering d h) (hturn : Turn settings now d notes d') :
    Numbering d' (h ++ notes) := by
  cases hturn with
  | rests hjobs hnext hqueue hactive hcompleted hworkers hpending hlisted hgranted =>
    refine hn.of_places rfl hnext fun n => ?_
    rw [JobHistory.append_nil, places, hpending, JobPool.numbers, hqueue, hactive, places,
      JobPool.numbers]
  | sweeps | enters =>
    refine hn.of_places rfl rfl fun n => ?_
    simp [places, pending, Submission.pending]
  | numbers request =>
    rename_i jobs nextJob pool front back
    refine ⟨?_, ?_, List.perm_iff_count.mpr fun n => ?_⟩
    · refine List.pairwise_append.mpr ⟨hn.ascending, List.pairwise_singleton _ _, ?_⟩
      intro n hmem k hk
      rw [List.mem_singleton.mp hk]
      exact hn.given n hmem
    · intro n hmem
      rcases List.mem_append.mp hmem with hmem | hmem
      · exact Nat.lt_succ_of_lt (hn.given n hmem)
      · rw [List.mem_singleton.mp hmem]
        exact Nat.lt_succ_self _
    · have hcount := hn.dealt.count_eq n
      simp [places, pending, Submission.pending, List.count_cons] at hcount ⊢
      omega
  | accepts | refuses =>
    refine hn.of_places rfl rfl fun n => ?_
    simp [places, pending, Submission.pending, JobPool.numbers, List.count_cons]
    omega
  | hires n hfree =>
    refine hn.of_places rfl rfl fun k => ?_
    have hcount := (JobPool.numbers_hire n d.pool).count_eq k
    simp [places, pending, List.count_append, hcount]
  | ends outcome hfound houtcome =>
    refine hn.of_places rfl rfl fun n => ?_
    have hcount := (JobPool.active_release hn.pool_nodup hfound).count_eq n
    simp [places, pending, JobPool.numbers, List.count_cons, JobPool.release] at hcount ⊢
    omega

end Numbering

/-! ## Order -/

/-- Jobs start in the order in which they have been accepted, and the workers come to an end with
each that has started, once. -/
structure Order (settings : StoreSettings) (d : JobDesk) (h : JobHistory) : Prop where
  queued : h.accepted = h.started ++ d.pool.queue.map (·.id)
  worked : h.started.Perm (h.ended.map (·.1) ++ d.pool.active.map (·.job.id))
  granted : h.accepted.Perm d.granted
  completed : d.pool.completed = h.ended.length
  waiting : d.pool.queue.length ≤ settings.maxQueuedJobs
  running : d.pool.active.length ≤ d.pool.workers
  staff : d.pool.workers ≤ max settings.jobWorkers 1

namespace Order

/-- A turn in which no job is accepted, starts or ends. -/
theorem of_rest (ho : Order settings d h) (hqueue : d'.pool.queue = d.pool.queue)
    (hactive : d'.pool.active.map (·.job.id) = d.pool.active.map (·.job.id))
    (hcompleted : d'.pool.completed = d.pool.completed)
    (hworkers : d'.pool.workers = d.pool.workers ∨ d'.pool.workers = max settings.jobWorkers 1)
    (hgranted : d'.granted = d.granted) (haccepted : notes.accepted = [])
    (hstarted : notes.started = []) (hended : notes.ended = []) :
    Order settings d' (h ++ notes) := by
  have hlength : d'.pool.active.length = d.pool.active.length := by
    simpa using congrArg List.length hactive
  have hrunning := ho.running
  have hstaff := ho.staff
  constructor
  · simpa [haccepted, hstarted, hqueue] using ho.queued
  · simpa [hstarted, hended, hactive] using ho.worked
  · simpa [haccepted, hgranted] using ho.granted
  · simpa [hended, hcompleted] using ho.completed
  · exact hqueue ▸ ho.waiting
  · omega
  · omega

theorem turn (ho : Order settings d h) (hnodup : d.pool.numbers.Nodup)
    (hturn : Turn settings now d notes d') : Order settings d' (h ++ notes) := by
  cases hturn with
  | rests hjobs hnext hqueue hactive hcompleted hworkers hpending hlisted hgranted =>
    exact ho.of_rest hqueue hactive hcompleted hworkers hgranted rfl rfl rfl
  | sweeps | numbers | enters | refuses =>
    refine ho.of_rest rfl rfl rfl (.inl rfl) ?_ rfl rfl rfl
    simp [JobDesk.granted, Submission.granted]
  | accepts id request hroom =>
    refine ⟨?_, ?_, List.perm_iff_count.mpr fun n => ?_, ?_, ?_, ho.running, ho.staff⟩
    · simp [ho.queued]
    · simpa using ho.worked
    · have hcount := ho.granted.count_eq n
      simp [JobDesk.granted, Submission.granted, List.count_cons] at hcount ⊢
      omega
    · simpa using ho.completed
    · simpa using Nat.succ_le_of_lt hroom
  | hires n hfree =>
    refine ⟨?_, List.perm_iff_count.mpr fun k => ?_, ?_, ?_, ?_, ?_, ho.staff⟩
    · have hsplit := congrArg (List.map (·.id)) (List.take_append_drop n d.pool.queue)
      rw [List.map_append] at hsplit
      simp only [JobHistory.accepted_append, JobHistory.started_append, JobPool.hire,
        List.append_nil, List.append_assoc, hsplit]
      exact ho.queued
    · have hcount := ho.worked.count_eq k
      simp [JobPool.hire, Function.comp_def] at hcount ⊢
      omega
    · simpa [JobDesk.granted] using ho.granted
    · simpa [JobPool.hire] using ho.completed
    · have hwaiting := ho.waiting
      simp only [JobPool.hire, List.length_drop]
      omega
    · have hrunning := ho.running
      simp only [JobPool.free, JobPool.hire, List.length_append, List.length_map,
        List.length_take] at hfree ⊢
      omega
  | ends outcome hfound houtcome =>
    rename_i a id
    have hactive := JobPool.active_release hnodup hfound
    refine ⟨?_, List.perm_iff_count.mpr fun n => ?_, ?_, ?_, ho.waiting, ?_, ho.staff⟩
    · simpa [JobPool.release] using ho.queued
    · have hworked := ho.worked.count_eq n
      have hcount := hactive.count_eq n
      simp [List.count_cons] at hworked hcount ⊢
      omega
    · simpa [JobDesk.granted] using ho.granted
    · simpa [JobPool.release] using ho.completed
    · have hrunning := ho.running
      have hfewer := List.length_filter_le (fun b : ActiveJob => b.job.id ≠ id) d.pool.active
      simp only [JobPool.release]
      omega

end Order

/-! ## Both -/

section

variable (hn : Numbering d h) (ho : Order settings d h)
include hn ho

/-- A number that has been given is in the hands of a submission, or its job has been accepted, or
it has been refused. -/
theorem numbered_perm : h.numbered.Perm (d.pending ++ (h.accepted ++ h.refused)) := by
  refine List.perm_iff_count.mpr fun n => ?_
  have hdealt := hn.dealt.count_eq n
  have hworked := ho.worked.count_eq n
  rw [ho.queued]
  simp only [places, JobPool.numbers, List.count_append] at hdealt hworked ⊢
  omega

theorem settled_nodup : (h.accepted ++ h.refused).Nodup :=
  (List.nodup_append.mp
    ((numbered_perm hn ho).nodup_iff.mp (hn.ascending.imp Nat.ne_of_lt))).2.1

theorem started_nodup : h.started.Nodup :=
  (List.nodup_append.mp
    (ho.queued ▸ (List.nodup_append.mp (settled_nodup hn ho)).1)).1

/-- A job ends once. -/
theorem mem_ended_iff {id : Nat} {entry entry' : JobEntry} (hmem : (id, entry) ∈ h.ended) :
    (id, entry') ∈ h.ended ↔ entry' = entry := by
  have hnodup : (h.ended.map (·.1)).Nodup :=
    (List.nodup_append.mp (ho.worked.nodup_iff.mp (started_nodup hn ho))).1
  refine ⟨fun hmem' => ?_, fun heq => heq ▸ hmem⟩
  exact (Prod.mk.inj (List.inj_on_of_nodup_map hnodup hmem' hmem rfl)).2

end

/-! ## What is known -/

/-- What the store knows of jobs is what has come of them: a job is known to be in progress from
when it is entered until it has ended, and then its outcome is known until it is forgotten. -/
structure Table (settings : StoreSettings) (d : JobDesk) (h : JobHistory) : Prop where
  sorted : Ordered.Sorted d.jobs
  underway : ∀ n ∈ d.listed ++ d.pool.numbers,
    Ordered.find? n d.jobs = some ⟨.inProgress, none⟩
  ended : ∀ e ∈ h.ended, e.2.state ≠ .inProgress ∧
    Ordered.find? e.1 d.jobs = if e.1 ∈ h.forgotten.map (·.1) then none else some e.2
  refused : ∀ n ∈ h.refused, Ordered.find? n d.jobs = none
  known : ∀ e ∈ d.jobs, e.2 = ⟨.inProgress, none⟩ ∨ e ∈ h.ended
  forgotten : ∀ f ∈ h.forgotten, ∃ outcome ended, (f.1, ⟨outcome, some ended⟩) ∈ h.ended ∧
    ended + 1000 * (settings.jobRetention : Int) ≤ f.2

namespace Table

/-- The outcomes that have been forgotten are those of jobs that have ended. -/
theorem forgotten_subset (ht : Table settings d h) :
    h.forgotten.map (·.1) ⊆ h.ended.map (·.1) := by
  intro n hn
  obtain ⟨f, hf, rfl⟩ := List.mem_map.mp hn
  obtain ⟨outcome, ended, hmem, -⟩ := ht.forgotten f hf
  exact List.mem_map_of_mem hmem

/-- A turn in which nothing is forgotten, and all that was known of jobs that had ended or had been
refused stays. -/
theorem of_settled (ht : Table settings d h) (hsorted : Ordered.Sorted d'.jobs)
    (hunderway : ∀ n ∈ d'.listed ++ d'.pool.numbers,
      Ordered.find? n d'.jobs = some ⟨.inProgress, none⟩)
    (hsettled : ∀ n ∈ h.ended.map (·.1) ++ h.refused,
      Ordered.find? n d'.jobs = Ordered.find? n d.jobs)
    (hended : ∀ e ∈ notes.ended, e.1 ∉ h.ended.map (·.1) ∧ e.2.state ≠ .inProgress ∧
      Ordered.find? e.1 d'.jobs = some e.2)
    (hrefused : ∀ n ∈ notes.refused, Ordered.find? n d'.jobs = none)
    (hknown : ∀ e ∈ d'.jobs, e ∈ d.jobs ∨ e.2 = ⟨.inProgress, none⟩ ∨ e ∈ notes.ended)
    (hforgotten : notes.forgotten = []) : Table settings d' (h ++ notes) := by
  refine ⟨hsorted, hunderway, fun e he => ?_, fun n hmem => ?_, fun e he => ?_, ?_⟩
  · rw [JobHistory.forgotten_append, hforgotten, List.append_nil]
    rcases List.mem_append.mp he with he | he
    · rw [hsettled e.1 (List.mem_append_left _ (List.mem_map_of_mem he))]
      exact ht.ended e he
    · obtain ⟨hnew, hstate, hfound⟩ := hended e he
      rw [if_neg fun hmem => hnew (ht.forgotten_subset hmem)]
      exact ⟨hstate, hfound⟩
  · rcases List.mem_append.mp hmem with hmem | hmem
    · rw [hsettled n (List.mem_append_right _ hmem)]
      exact ht.refused n hmem
    · exact hrefused n hmem
  · rcases hknown e he with he | he | he
    · exact (ht.known e he).imp_right (List.mem_append_left _)
    · exact .inl he
    · exact .inr (List.mem_append_right _ he)
  · rw [JobHistory.forgotten_append, hforgotten, List.append_nil]
    intro f hf
    obtain ⟨outcome, ended, hmem, hle⟩ := ht.forgotten f hf
    exact ⟨outcome, ended, List.mem_append_left _ hmem, hle⟩

/-- A turn that leaves the table as it is, and enters no job. -/
theorem of_rest (ht : Table settings d h) (hjobs : d'.jobs = d.jobs)
    (hunderway : d'.listed ++ d'.pool.numbers ⊆ d.listed ++ d.pool.numbers)
    (hended : notes.ended = []) (hrefused : notes.refused = [])
    (hforgotten : notes.forgotten = []) :
    Table settings d' (h ++ notes) := by
  refine ht.of_settled (hjobs ▸ ht.sorted) (fun n hn => ?_) (fun n _ => by rw [hjobs]) ?_ ?_
    (fun e he => .inl (hjobs ▸ he)) hforgotten
  · rw [hjobs]
    exact ht.underway n (hunderway hn)
  · simp [hended]
  · simp [hrefused]

/-- The jobs of which nothing is known after a sweep. -/
theorem mem_dropped_iff (ht : Table settings d h) (now : Instant) (n : Nat) :
    n ∈ ((d.jobs.filter (!·.2.isKept now settings.jobRetention)).map (·.1, now)).map (·.1) ↔
      ∃ j, Ordered.find? n d.jobs = some j ∧ j.isKept now settings.jobRetention = false := by
  simp [Ordered.find?_eq_some_iff ht.sorted]

/-- An outcome that a sweep drops is one whose time is over. -/
theorem overdue_of_dropped (ht : Table settings d h) {e : Nat × JobEntry} (hmem : e ∈ d.jobs)
    (hdrop : e.2.isKept now settings.jobRetention = false) :
    ∃ outcome ended, (e.1, ⟨outcome, some ended⟩) ∈ h.ended ∧
      ended + 1000 * (settings.jobRetention : Int) ≤ now := by
  obtain ⟨id, state, finished⟩ := e
  cases finished with
  | none => cases hdrop
  | some ended =>
    have hover : ended + 1000 * (settings.jobRetention : Int) ≤ now := by
      simpa [JobEntry.isKept] using hdrop
    rcases ht.known _ hmem with hknown | hknown
    · cases hknown
    · exact ⟨state, ended, hknown, hover⟩

/-- A submission forgets the outcomes whose time is over. -/
theorem of_sweep (ht : Table settings d h)
    (hjobs : d'.jobs = d.jobs.filter (·.2.isKept now settings.jobRetention))
    (hunderway : d'.listed ++ d'.pool.numbers = d.listed ++ d.pool.numbers) :
    Table settings d' (h ++
      { forgotten := (d.jobs.filter (!·.2.isKept now settings.jobRetention)).map (·.1, now) }) := by
  have hfind : ∀ n, Ordered.find? n d'.jobs =
      (Ordered.find? n d.jobs).filter (·.isKept now settings.jobRetention) := by
    intro n
    rw [hjobs]
    exact Ordered.find?_filter ht.sorted _ n
  refine ⟨hjobs ▸ ht.sorted.filter _, fun n hn => ?_, fun e he => ?_, fun n hn => ?_,
    fun e he => ?_, fun f hf => ?_⟩
  · rw [hfind, ht.underway n (hunderway ▸ hn)]
    rfl
  · rw [JobHistory.ended_append, List.append_nil] at he
    obtain ⟨hstate, hfound⟩ := ht.ended e he
    refine ⟨hstate, ?_⟩
    rw [hfind, hfound, JobHistory.forgotten_append, List.map_append]
    by_cases hold : e.1 ∈ h.forgotten.map (·.1)
    · rw [if_pos hold, if_pos (List.mem_append_left _ hold)]
      rfl
    · rw [if_neg hold] at hfound ⊢
      cases hkept : e.2.isKept now settings.jobRetention with
      | true =>
        rw [Option.filter_some_pos hkept, if_neg]
        intro hmem
        rcases List.mem_append.mp hmem with hmem | hmem
        · exact hold hmem
        · obtain ⟨j, hj, hdrop⟩ := (ht.mem_dropped_iff now e.1).mp hmem
          obtain rfl := Option.some.inj (hfound.symm.trans hj)
          rw [hkept] at hdrop
          cases hdrop
      | false =>
        rw [Option.filter_some_neg hkept, if_pos]
        exact List.mem_append_right _ ((ht.mem_dropped_iff now e.1).mpr ⟨e.2, hfound, hkept⟩)
  · rw [JobHistory.refused_append, List.append_nil] at hn
    rw [hfind, ht.refused n hn]
    rfl
  · rw [JobHistory.ended_append, List.append_nil]
    exact ht.known e (List.mem_filter.mp (hjobs ▸ he)).1
  · rw [JobHistory.ended_append, List.append_nil]
    rcases List.mem_append.mp hf with hf | hf
    · exact ht.forgotten f hf
    · obtain ⟨e, he, rfl⟩ := List.mem_map.mp hf
      obtain ⟨hmem, hdrop⟩ := List.mem_filter.mp he
      exact ht.overdue_of_dropped hmem (by simpa using hdrop)

/-- What is known of the jobs that are underway stays, if one of them is settled. -/
theorem underway_of_settled (ht : Table settings d h) (hn : Numbering d h) (id : Nat)
    (hperm : (d.listed ++ d.pool.numbers).Perm (id :: (d'.listed ++ d'.pool.numbers)))
    (hfind : ∀ n ≠ id, Ordered.find? n d'.jobs = Ordered.find? n d.jobs) :
    ∀ n ∈ d'.listed ++ d'.pool.numbers, Ordered.find? n d'.jobs = some ⟨.inProgress, none⟩ := by
  intro n hmem
  have hne : n ≠ id := by
    rintro rfl
    exact (List.nodup_cons.mp (hperm.nodup_iff.mp hn.underway_nodup)).1 hmem
  rw [hfind n hne]
  exact ht.underway n (hperm.symm.subset (List.mem_cons_of_mem _ hmem))

theorem turn (ht : Table settings d h) (hn : Numbering d h)
    (hturn : Turn settings now d notes d') : Table settings d' (h ++ notes) := by
  cases hturn with
  | rests hjobs hnext hqueue hactive hcompleted hworkers hpending hlisted hgranted =>
    refine ht.of_rest hjobs ?_ rfl rfl rfl
    rw [hlisted, JobPool.numbers, hqueue, hactive, JobPool.numbers]
    exact List.Subset.refl _
  | sweeps request =>
    refine ht.of_sweep rfl ?_
    simp [listed, Submission.listed]
  | numbers request =>
    refine ht.of_rest rfl ?_ rfl rfl rfl
    simp [listed, Submission.listed]
  | enters id request =>
    rename_i jobs nextJob pool front back
    have hfresh := hn.not_mem_settled (n := id) (by simp [pending, Submission.pending])
    refine ht.of_settled (ht.sorted.insert _ _) (fun n hmem => ?_) (fun n hmem => ?_)
      (List.forall_mem_nil _) (List.forall_mem_nil _) (fun e he => ?_) rfl
    · rw [Ordered.find?_insert]
      split
      · rfl
      · rename_i hne
        exact ht.underway n (by simpa [listed, Submission.listed, hne] using hmem)
    · rw [Ordered.find?_insert, if_neg fun hid : n = id => hfresh (hid ▸ hmem)]
    · rcases Ordered.mem_insert he with rfl | he
      · exact .inr (.inl rfl)
      · exact .inl he
  | refuses id e =>
    rename_i jobs nextJob pool front back
    have hfresh := hn.not_mem_settled (n := id) (by simp [pending, Submission.pending])
    refine ht.of_settled (ht.sorted.erase _) ?_ (fun n hmem => ?_)
      (List.forall_mem_nil _) (fun n hmem => ?_) (fun e he => ?_) rfl
    · refine ht.underway_of_settled hn id (List.perm_iff_count.mpr fun n => ?_)
        fun n hne => ?_
      · simp [listed, Submission.listed, List.count_cons]
        omega
      · rw [Ordered.find?_erase ht.sorted, if_neg hne]
    · rw [Ordered.find?_erase ht.sorted, if_neg fun hid : n = id => hfresh (hid ▸ hmem)]
    · rw [Ordered.find?_erase ht.sorted, if_pos (List.mem_singleton.mp hmem)]
    · exact .inl ((Ordered.erase_sublist _ _).subset he)
  | accepts id request hroom =>
    refine ht.of_rest rfl (List.Perm.subset (List.perm_iff_count.mpr fun n => ?_)) rfl rfl rfl
    simp [listed, Submission.listed, JobPool.numbers, List.count_cons]
    omega
  | hires n hfree =>
    refine ht.of_rest rfl ?_ rfl rfl rfl
    exact (List.Perm.append_left _ (JobPool.numbers_hire n d.pool)).subset
  | ends outcome hfound houtcome =>
    rename_i a id
    have hin : id ∈ d.pool.numbers := JobPool.mem_numbers_of_find? hfound
    have hfresh := hn.not_mem_settled (List.mem_append_right _ hin)
    have hactive := JobPool.active_release hn.pool_nodup hfound
    refine ht.of_settled (ht.sorted.insert _ _) ?_ (fun n hmem => ?_)
      (fun e he => ?_) (List.forall_mem_nil _) (fun e he => ?_) rfl
    · refine ht.underway_of_settled hn id (List.perm_iff_count.mpr fun n => ?_)
        fun n hne => ?_
      · have hcount := hactive.count_eq n
        simp [listed, JobPool.numbers, JobPool.release, List.count_cons] at hcount ⊢
        omega
      · rw [Ordered.find?_insert, if_neg hne]
    · rw [Ordered.find?_insert, if_neg fun hid : n = id => hfresh (hid ▸ hmem)]
    · rw [List.mem_singleton.mp he]
      exact ⟨fun hmem => hfresh (List.mem_append_left _ hmem), houtcome,
        (Ordered.find?_insert ..).trans (if_pos rfl)⟩
    · rcases Ordered.mem_insert he with rfl | he
      · exact .inr (.inr List.mem_cons_self)
      · exact .inl he

end Table

end JobDesk

/-! ## All that happens -/

namespace JobTraffic

variable {settings : StoreSettings} {t : JobTraffic} {h : JobHistory}

/-- Numbers, order and table, of a store that has been built with these settings. -/
structure Kept (settings : StoreSettings) (t : JobTraffic) (h : JobHistory) : Prop where
  same : t.store.settings = settings
  numbering : t.desk.Numbering h
  order : t.desk.Order settings h
  table : t.desk.Table settings h

theorem settings_after (t : JobTraffic) (e : JobEvent) :
    (t.after e).store.settings = t.store.settings := by
  cases e with
  | goes i =>
    cases hcall : t.calls[i]? with
    | none => simp only [after, hcall]
    | some call =>
      simp only [after, hcall]
      exact call.settings_next t.now t.store
  | hires => rfl
  | happens e =>
    cases e with
    | startJob request => rfl
    | _ => exact t.toMoment.settings_after _

theorem kept_initial (settings : StoreSettings) (now : Instant) :
    (initial settings now).Kept settings {} := by
  refine ⟨rfl, ⟨List.Pairwise.nil, nofun, List.Perm.refl _⟩, ?_, ?_⟩
  · exact ⟨rfl, List.Perm.refl _, List.Perm.refl _, rfl, Nat.zero_le _, Nat.zero_le _,
      Nat.zero_le _⟩
  · exact ⟨List.Pairwise.nil, nofun, nofun, nofun, nofun, nofun⟩

theorem Kept.after (hk : t.Kept settings h) (e : JobEvent) :
    (t.after e).Kept settings (h ++ t.notes e) := by
  have hturn := t.turn e
  rw [hk.same] at hturn
  exact ⟨(t.settings_after e).trans hk.same, hk.numbering.turn hturn,
    hk.order.turn hk.numbering.pool_nodup hturn, hk.table.turn hk.numbering hturn⟩

theorem Kept.run (hk : t.Kept settings h) (events : List JobEvent) :
    (t.run events).Kept settings (h ++ t.history events) := by
  induction events generalizing t h with
  | nil => exact (JobHistory.append_nil h).symm ▸ hk
  | cons e rest ih =>
    rw [history, ← JobHistory.append_assoc]
    exact ih (hk.after e)

/-- What those can rely on who submit jobs to a store and ask about them, given what has come of
jobs so far. -/
structure Accounted (settings : StoreSettings) (t : JobTraffic) (h : JobHistory) : Prop where
  /-- Numbers ascend in the order in which they are given, so none is given twice. -/
  ascending : h.numbered.Pairwise (· < ·)
  /-- A job that is accepted or refused has a number of its own. -/
  own : (h.accepted ++ h.refused).Nodup ∧ h.accepted ++ h.refused ⊆ h.numbered
  /-- The jobs that have been accepted are those whose submissions have been told so. -/
  told : h.accepted.Perm (t.calls.flatMap Submission.granted)
  /-- Jobs start in the order in which they have been accepted, and the others wait in this
  order. -/
  queued : h.accepted = h.started ++ t.store.pool.queue.map (·.id)
  /-- A job that has been started runs, or has run to its end: one of both, and once. -/
  once : h.started.Nodup ∧
    h.started.Perm (h.ended.map (·.1) ++ t.store.pool.active.map (·.job.id))
  /-- When no job waits or runs, each job that has been accepted has run. -/
  all : t.store.pool.queue = [] → t.store.pool.active = [] →
    h.started = h.accepted ∧ (h.ended.map (·.1)).Perm h.accepted
  /-- A job that has been accepted is in progress until it ends, which gives it its one outcome.
  From then on this is the answer, until it has been forgotten. -/
  status : t.store.accessRead = .ok () → ∀ id ∈ h.accepted,
    (id ∉ h.ended.map (·.1) ∧ t.store.jobStatus id = .ok .inProgress) ∨
      ∃ entry, (∀ entry', (id, entry') ∈ h.ended ↔ entry' = entry) ∧ entry.state ≠ .inProgress ∧
        t.store.jobStatus id =
          if id ∈ h.forgotten.map (·.1) then .error (.jobNotFound id) else .ok entry.state
  /-- A submission forgets the outcome of a job only if the time for which it is kept is over. -/
  forgotten : ∀ f ∈ h.forgotten, ∃ outcome ended, (f.1, ⟨outcome, some ended⟩) ∈ h.ended ∧
    ended + 1000 * (settings.jobRetention : Int) ≤ f.2
  /-- Nothing is known of a job for which there was no room. -/
  refused : ∀ id ∈ h.refused, Ordered.find? id t.store.jobs = none
  waiting : t.store.pool.queue.length ≤ settings.maxQueuedJobs
  running : t.store.pool.active.length ≤ max settings.jobWorkers 1
  sum : t.store.pool.queue.length + t.store.pool.active.length + t.store.pool.completed =
    h.accepted.length

/-- What is answered about a job that has been accepted. -/
theorem Kept.status (hk : t.Kept settings h) (hread : t.store.accessRead = .ok ()) {id : Nat}
    (hmem : id ∈ h.accepted) :
    (id ∉ h.ended.map (·.1) ∧ t.store.jobStatus id = .ok .inProgress) ∨
      ∃ entry, (∀ entry', (id, entry') ∈ h.ended ↔ entry' = entry) ∧ entry.state ≠ .inProgress ∧
        t.store.jobStatus id =
          if id ∈ h.forgotten.map (·.1) then .error (.jobNotFound id) else .ok entry.state := by
  have hplace : id ∈ h.ended.map (·.1) ∨ id ∈ t.store.pool.numbers := by
    rw [hk.order.queued] at hmem
    rcases List.mem_append.mp hmem with hstarted | hqueue
    · exact (List.mem_append.mp (hk.order.worked.subset hstarted)).imp_right
        (List.mem_append_right _)
    · exact .inr (List.mem_append_left _ hqueue)
  rcases hplace with hended | hpool
  · obtain ⟨⟨id, entry⟩, he, rfl⟩ := List.mem_map.mp hended
    obtain ⟨hstate, hfound⟩ := hk.table.ended _ he
    refine .inr ⟨entry, fun entry' => JobDesk.mem_ended_iff hk.numbering hk.order he, hstate, ?_⟩
    by_cases hforgotten : id ∈ h.forgotten.map (·.1)
    · rw [if_pos hforgotten] at hfound ⊢
      exact Store.jobStatus_of_unknown hread hfound
    · rw [if_neg hforgotten] at hfound ⊢
      exact Store.jobStatus_of_known hread hfound
  · have hfound : Ordered.find? id t.store.jobs = some ⟨.inProgress, none⟩ :=
      hk.table.underway id (List.mem_append_right _ hpool)
    refine .inl ⟨fun hended => ?_, Store.jobStatus_of_known hread hfound⟩
    exact hk.numbering.not_mem_settled (List.mem_append_right _ hpool)
      (List.mem_append_left _ hended)

theorem Kept.accounted (hk : t.Kept settings h) : t.Accounted settings h := by
  have hperm := JobDesk.numbered_perm hk.numbering hk.order
  have hqueued : h.accepted = h.started ++ t.store.pool.queue.map (·.id) := hk.order.queued
  have hworked : h.started.Perm (h.ended.map (·.1) ++ t.store.pool.active.map (·.job.id)) :=
    hk.order.worked
  refine ⟨hk.numbering.ascending, ⟨?_, ?_⟩, hk.order.granted, hqueued, ⟨?_, hworked⟩, ?_, ?_,
    hk.table.forgotten, hk.table.refused, hk.order.waiting, ?_, ?_⟩
  · exact JobDesk.settled_nodup hk.numbering hk.order
  · exact fun n hmem => hperm.symm.subset (List.mem_append_right _ hmem)
  · exact JobDesk.started_nodup hk.numbering hk.order
  · intro hqueue hactive
    rw [hqueue, List.map_nil, List.append_nil] at hqueued
    rw [hactive, List.map_nil, List.append_nil] at hworked
    exact ⟨hqueued.symm, hqueued ▸ hworked.symm⟩
  · exact fun hread id hmem => hk.status hread hmem
  · exact Nat.le_trans hk.order.running hk.order.staff
  · have hcompleted : t.store.pool.completed = h.ended.length := hk.order.completed
    have hlength := hworked.length_eq
    rw [hqueued, hcompleted]
    simp only [List.length_append, List.length_map] at hlength ⊢
    omega

/-- In whatever order submissions and workers take their steps, and whatever else happens to the
store, the accounts of the jobs are in order. -/
theorem accounted_at_all_times (settings : StoreSettings) (now : Instant)
    (events : List JobEvent) :
    ((initial settings now).run events).Accounted settings
      ((initial settings now).history events) :=
  ((kept_initial settings now).run events).accounted

/-- Three submissions are given their numbers before the first of them looks for room. The last one
finds it, the first one does not, and the second one does when a worker has taken the last one's
job. This job has ended and its time is over when a fourth submission is made. -/
def outOfTurn : List JobEvent :=
  let submits : JobEvent := .happens (.startJob { selection := { ns := "test" }, ops := [.touch] })
  [submits, submits, submits] ++
    [.goes 0, .goes 0, .goes 0, .goes 1, .goes 1, .goes 1, .goes 2, .goes 2, .goes 2] ++
    [.goes 2, .goes 2, .goes 2, .goes 0, .goes 0, .goes 0, .hires, .goes 1, .goes 1, .goes 1] ++
    [.goes 0, .happens (.stepJob 3), .happens (.stepJob 3), .happens (.clock 600000)] ++
    [submits, .goes 3, .goes 3]

example :
    (initial { jobWorkers := 1, maxQueuedJobs := 1 } 0).history outOfTurn =
      { numbered := [1, 2, 3], accepted := [3, 2], refused := [1], started := [3],
        ended := [(3, ⟨.done 0, some 0⟩)], forgotten := [(3, 600000)] } := by
  rfl

end JobTraffic
end RecordService
