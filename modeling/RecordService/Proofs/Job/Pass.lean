import RecordService.Proofs.Store.Run
import RecordService.Proofs.Store.Write

/-!
# The batches of a job

A worker goes through the digests of its job batch by batch. Where nothing else happens to the
store in the meantime this comes to one pass over all of them, whatever the size of a batch.

* `JobRequest.visitAll_append`: a pass over two lists is one over the first and, if that did not
  fail, one over the second.
* `JobRequest.visitAll_candidates`: a pass over the live records of the set is one over those that
  are selected.
* `Store.passJob`: one pass over the digests of a job, which ends it.
* `Store.stepJob_inv`: all that a step of the worker can do.
* `Store.Working.step`: a step of the worker ends the job, or leaves fewer digests to the same end.
* `Store.Working.run`, `Store.run_fresh`: so the steps of the worker come to one pass.
-/

namespace RecordService

/-- How a job ends that has visited its digests. -/
def JobState.ofOutcome : Except StoreError Nat → JobState
  | .ok changed => .done changed
  | .error e => .failed e.message

/-! ## A pass over digests -/

namespace JobRequest

variable {request : JobRequest} {now : Instant} {rs : Records} {d : Digest} {ds : List Digest}

/-- A pass over two lists, the first of which is counted by itself. -/
theorem visitAll_append (now : Instant) (request : JobRequest) (ds ds' : List Digest)
    (rs : Records) (before changed : Nat) :
    request.visitAll now (ds ++ ds') rs (before + changed) =
      match request.visitAll now ds rs changed with
      | (rs', .error e) => (rs', .error e)
      | (rs', .ok n) => request.visitAll now ds' rs' (before + n) := by
  induction ds generalizing rs changed with
  | nil => rfl
  | cons d rest ih =>
    simp only [List.cons_append, visitAll]
    cases request.visit now d rs with
    | error e => rfl
    | ok p =>
      obtain ⟨rs', hit⟩ := p
      cases hit with
      | true => exact ih rs' (changed + 1)
      | false => exact ih rs' changed

/-- The record that a job changes when it visits a digest. -/
def target? (now : Instant) (request : JobRequest) (rs : Records) (d : Digest) :
    Option StoredRecord :=
  (rs.live? now d).filter (·.passes request.selection.filter)

theorem target?_change_of_ne {d' : Digest} (h : d' ≠ d) (c : Change) :
    request.target? now (rs.change d c) d' = request.target? now rs d' := by
  rw [target?, target?, Records.live?_change_of_ne h]

theorem visit_eq (now : Instant) (request : JobRequest) (d : Digest) (rs : Records) :
    request.visit now d rs =
      match request.target? now rs d with
      | none => .ok (rs, false)
      | some r => (Cell.applyJob request.ops r).map fun c => (rs.change d c, true) := by
  unfold visit target?
  cases rs.live? now d with
  | none => rfl
  | some r => cases hr : r.passes request.selection.filter <;> simp [Option.filter, hr]

/-! A pass does one of three things at its first digest. -/

theorem visitAll_of_missed (h : request.target? now rs d = none) (changed : Nat) :
    request.visitAll now (d :: ds) rs changed = request.visitAll now ds rs changed := by
  rw [visitAll, visit_eq, h]
  rfl

theorem visitAll_of_refused {r : StoredRecord} {e : StoreError}
    (h : request.target? now rs d = some r) (he : Cell.applyJob request.ops r = .error e)
    (changed : Nat) : request.visitAll now (d :: ds) rs changed = (rs, .error e) := by
  simp only [visitAll, visit_eq, h, he, Except.map]

theorem visitAll_of_changed {r : StoredRecord} {c : Change}
    (h : request.target? now rs d = some r) (hc : Cell.applyJob request.ops r = .ok c)
    (changed : Nat) :
    request.visitAll now (d :: ds) rs changed =
      request.visitAll now ds (rs.change d c) (changed + 1) := by
  simp only [visitAll, visit_eq, h, hc, Except.map, if_true]

/-- Digests at which there is nothing to change can be left out. -/
theorem visitAll_filter (h : ds.Nodup) (rs : Records) (changed : Nat) :
    request.visitAll now (ds.filter fun d => (request.target? now rs d).isSome) rs changed =
      request.visitAll now ds rs changed := by
  induction ds generalizing rs changed with
  | nil => rfl
  | cons d rest ih =>
    obtain ⟨hd, hrest⟩ := List.nodup_cons.mp h
    cases hr : request.target? now rs d with
    | none => rw [List.filter_cons_of_neg (by simp [hr]), ih hrest, visitAll_of_missed hr]
    | some r =>
      rw [List.filter_cons_of_pos (by simp [hr])]
      cases hc : Cell.applyJob request.ops r with
      | error e => rw [visitAll_of_refused hr hc, visitAll_of_refused hr hc]
      | ok c =>
        -- What is done at `d` makes no difference to the digests behind it.
        have hkeep : ∀ x ∈ rest, request.target? now (rs.change d c) x = request.target? now rs x :=
          fun x hx => target?_change_of_ne (fun hxd : x = d => hd (hxd ▸ hx)) c
        have hfilter : (rest.filter fun x => (request.target? now rs x).isSome) =
            rest.filter fun x => (request.target? now (rs.change d c) x).isSome :=
          List.filter_congr fun x hx => by rw [hkeep x hx]
        rw [visitAll_of_changed hr hc, visitAll_of_changed hr hc, hfilter, ih hrest]

theorem filter_candidates (h : Ordered.Sorted rs) :
    ((request.candidates now rs).filter fun d => (request.target? now rs d).isSome) =
      (rs.selected now request.selection).map (·.1) := by
  have htarget : ∀ e ∈ rs, (request.target? now rs e.1).isSome =
      (e.2.isLive now && e.2.passes request.selection.filter) := by
    intro e he
    rw [target?, Records.live?, (Ordered.find?_eq_some_iff h).mpr he]
    cases hlive : e.2.isLive now <;> cases hpass : e.2.passes request.selection.filter <;>
      simp [Option.filter, hlive, hpass]
  rw [candidates, List.filter_map, List.filter_filter, Records.selected]
  refine congrArg _ (List.filter_congr fun e he => ?_)
  rw [Function.comp_apply, htarget e he]
  cases e.2.isLive now <;> cases e.2.passes request.selection.filter <;> simp

theorem candidates_nodup (h : Ordered.Sorted rs) : (request.candidates now rs).Nodup :=
  (h.filter _).keys_nodup

/-- To visit the live records of the set comes to visiting those that are selected. -/
theorem visitAll_candidates (h : Ordered.Sorted rs) (changed : Nat) :
    request.visitAll now (request.candidates now rs) rs changed =
      request.visitAll now ((rs.selected now request.selection).map (·.1)) rs changed := by
  rw [← filter_candidates h, visitAll_filter (candidates_nodup h)]

theorem target?_of_selected (h : Ordered.Sorted rs) :
    ∀ d ∈ (rs.selected now request.selection).map (·.1),
      (request.target? now rs d).isSome := by
  rw [← filter_candidates h]
  exact fun d hd => (List.mem_filter.mp hd).2

end JobRequest

/-! ## The worker of a job -/

namespace JobPool

variable {p : JobPool} {a : ActiveJob} {id : Nat}

/-- The job that a worker has taken. -/
def find? (id : Nat) (p : JobPool) : Option ActiveJob := p.active.find? (·.job.id == id)

theorem id_of_find? (h : p.find? id = some a) : a.job.id = id := by
  simpa using List.find?_some h

theorem find?_update (a' : ActiveJob) (h : p.find? a'.job.id = some a) :
    (p.update a').find? a'.job.id = some a' := by
  have hkeep : ((·.job.id == a'.job.id) ∘ fun b : ActiveJob =>
      if b.job.id = a'.job.id then a' else b) = (·.job.id == a'.job.id) := by
    funext b
    by_cases hb : b.job.id = a'.job.id <;> simp [hb]
  rw [find?] at h
  rw [find?, update, List.find?_map, hkeep, h, Option.map_some, if_pos (id_of_find? h)]

theorem find?_release (id : Nat) (p : JobPool) : (p.release id).find? id = none := by
  simp [find?, release]

/-- What was known of a job does not matter once its worker is free. -/
theorem release_update (a : ActiveJob) (p : JobPool) :
    (p.update a).release a.job.id = p.release a.job.id := by
  have hkeep : (fun b : ActiveJob => decide (b.job.id ≠ a.job.id)) ∘
      (fun b => if b.job.id = a.job.id then a else b) = fun b => decide (b.job.id ≠ a.job.id) := by
    funext b
    by_cases hb : b.job.id = a.job.id <;> simp [hb]
  have hsame : ∀ b ∈ p.active.filter fun b => b.job.id ≠ a.job.id,
      (if b.job.id = a.job.id then a else b) = b := by
    intro b hb
    exact if_neg (of_decide_eq_true (List.mem_filter.mp hb).2)
  simp only [release, update, List.filter_map, hkeep, List.map_congr_left hsame, List.map_id']

end JobPool

namespace Store

variable {s : Store} {now : Instant} {id : Nat} {a : ActiveJob} {ds : List Digest} {rs : Records}

theorem setSpace_setSpace (s : Store) (ns : String) (rs rs' : Records) :
    (s.setSpace ns rs).setSpace ns rs' = s.setSpace ns rs' := by
  simp only [setSpace, Ordered.insert_insert]

theorem WellFormed.setSpace_self (h : s.WellFormed) {ns : String} (hrs : s.space? ns = some rs) :
    s.setSpace ns rs = s := by
  rw [Store.setSpace, Ordered.insert_of_find? h.sorted hrs]

theorem endJob_noteJob (now : Instant) (a : ActiveJob) (outcome : JobState) (s : Store) :
    (s.noteJob a).endJob now a.job.id outcome = s.endJob now a.job.id outcome := by
  simp only [endJob, noteJob, JobPool.release_update]

/-- Visits the digests of a job in one pass and ends it. -/
def passJob (now : Instant) (a : ActiveJob) (ds : List Digest) (rs : Records) (s : Store) : Store :=
  let visited := a.job.request.visitAll now ds rs a.modified
  (s.setSpace a.job.request.selection.ns visited.1).endJob now a.job.id (.ofOutcome visited.2)

section PassJob

variable {rs' : Records} {ds' : List Digest}

/-- A pass over the records as they were noted before. -/
theorem passJob_noteJob (s : Store) (now : Instant) (a : ActiveJob) (ds : List Digest)
    (rs rs' : Records) :
    ((s.setSpace a.job.request.selection.ns rs').noteJob a).passJob now a ds rs =
      s.passJob now a ds rs := by
  have hcomm : ∀ rs'', ((s.setSpace a.job.request.selection.ns rs').noteJob a).setSpace
      a.job.request.selection.ns rs'' = (s.setSpace a.job.request.selection.ns rs'').noteJob a :=
    fun rs'' => congrArg (noteJob a) (setSpace_setSpace s _ rs' rs'')
  simp only [passJob, hcomm, endJob_noteJob]

theorem passJob_of_error {e : StoreError} (s : Store) (ds' : List Digest)
    (h : a.job.request.visitAll now ds rs 0 = (rs', .error e)) :
    s.passJob now a (ds ++ ds') rs =
      (s.setSpace a.job.request.selection.ns rs').endJob now a.job.id (.failed e.message) := by
  have hjoin := a.job.request.visitAll_append now ds ds' rs a.modified 0
  rw [h, Nat.add_zero] at hjoin
  simp only [passJob, hjoin]
  rfl

theorem passJob_of_ok {changed : Nat} (left : Option (List Digest))
    (h : a.job.request.visitAll now ds rs 0 = (rs', .ok changed)) :
    s.passJob now a (ds ++ ds') rs =
      s.passJob now { a with left, modified := a.modified + changed } ds' rs' := by
  have hjoin := a.job.request.visitAll_append now ds ds' rs a.modified 0
  rw [h, Nat.add_zero] at hjoin
  simp only [passJob, hjoin]

end PassJob

/-- All that a step of the worker of a job can do. -/
theorem stepJob_inv (now : Instant) (id : Nat) (s : Store) :
    (s.pool.find? id = none ∧ s.stepJob now id = s) ∨
      ∃ a, s.pool.find? id = some a ∧ a.job.id = id ∧
        ((∃ reason, s.space? a.job.request.selection.ns = none ∧
            s.stepJob now id = s.endJob now id (.failed reason)) ∨
          ∃ rs, s.space? a.job.request.selection.ns = some rs ∧
            ((a.left = none ∧ s.stepJob now id =
                s.noteJob { a with left := some (a.job.request.candidates now rs) }) ∨
              (a.left = some [] ∧ s.stepJob now id = s.endJob now id (.done a.modified)) ∨
              ∃ d rest, a.left = some (d :: rest) ∧
                s.stepJob now id = s.stepBatch now a (d :: rest) rs)) := by
  cases hfound : s.pool.find? id with
  | none =>
    have hnone : s.pool.active.find? (·.job.id == id) = none := hfound
    exact .inl ⟨rfl, by simp only [stepJob, hnone]⟩
  | some a =>
    have hsome : s.pool.active.find? (·.job.id == id) = some a := hfound
    refine .inr ⟨a, rfl, JobPool.id_of_find? hfound, ?_⟩
    cases hrs : s.space? a.job.request.selection.ns with
    | none =>
      have hstep : s.stepJob now id = s.endJob now id
          (.failed (StoreError.namespaceNotFound a.job.request.selection.ns).message) := by
        simp only [stepJob, hsome, space, hrs]
      exact .inl ⟨_, rfl, hstep⟩
    | some rs =>
      have hspace : s.space a.job.request.selection.ns = .ok rs := space_eq_ok_iff.mpr hrs
      refine .inr ⟨rs, rfl, ?_⟩
      match hleft : a.left with
      | none => exact .inl ⟨rfl, by simp only [stepJob, hsome, hspace, hleft]⟩
      | some [] => exact .inr (.inl ⟨rfl, by simp only [stepJob, hsome, hspace, hleft]⟩)
      | some (d :: rest) =>
        exact .inr (.inr ⟨d, rest, rfl, by simp only [stepJob, hsome, hspace, hleft]⟩)

/-- Where no worker has the job, there is no step to take. -/
theorem stepJob_of_find?_none (h : s.pool.find? id = none) (now : Instant) :
    s.stepJob now id = s := by
  have hactive : s.pool.active.find? (·.job.id == id) = none := h
  rw [stepJob, hactive]

/-- The first step of a worker is the look for the digests. -/
theorem stepJob_of_taken (hfound : s.pool.find? a.job.id = some a) (hleft : a.left = none)
    (hrs : s.space? a.job.request.selection.ns = some rs) (now : Instant) :
    s.stepJob now a.job.id =
      s.noteJob { a with left := some (a.job.request.candidates now rs) } := by
  have hactive : s.pool.active.find? (·.job.id == a.job.id) = some a := hfound
  simp only [stepJob, hactive, space_eq_ok_iff.mpr hrs, hleft]

/-- Where there are digests left the step is a batch. -/
theorem stepJob_of_left (hfound : s.pool.find? a.job.id = some a) (hleft : a.left = some ds)
    (hds : ds ≠ []) (hrs : s.space? a.job.request.selection.ns = some rs) (now : Instant) :
    s.stepJob now a.job.id = s.stepBatch now a ds rs := by
  have hactive : s.pool.active.find? (·.job.id == a.job.id) = some a := hfound
  obtain ⟨d, rest, rfl⟩ := List.exists_cons_of_ne_nil hds
  simp only [stepJob, hactive, space_eq_ok_iff.mpr hrs, hleft]

/-- The worker of a job has digests left, in a namespace with these records. -/
structure Working (s : Store) (a : ActiveJob) (ds : List Digest) (rs : Records) : Prop where
  active : s.pool.find? a.job.id = some a
  left : a.left = some ds
  space : s.space? a.job.request.selection.ns = some rs

/-- A step of the worker ends the job, or leaves fewer digests, and one pass over these ends the job
as one over all would have done. -/
theorem Working.step (h : s.Working a ds rs) (hwf : s.WellFormed) (now : Instant) :
    s.stepJob now a.job.id = s.passJob now a ds rs ∨
      ∃ a' ds' rs', a'.job.id = a.job.id ∧ (s.stepJob now a.job.id).Working a' ds' rs' ∧
        ds'.length < ds.length ∧
        (s.stepJob now a.job.id).passJob now a' ds' rs' = s.passJob now a ds rs := by
  cases ds with
  | nil =>
    have hactive : s.pool.active.find? (·.job.id == a.job.id) = some a := h.active
    refine .inl ?_
    simp only [stepJob, hactive, space_eq_ok_iff.mpr h.space, h.left, passJob, JobRequest.visitAll]
    rw [hwf.setSpace_self h.space]
    rfl
  | cons d rest =>
    have hstep := stepJob_of_left h.active h.left (List.cons_ne_nil d rest) h.space now
    have hsplit := List.take_append_drop s.batchSize (d :: rest)
    rw [hstep, stepBatch]
    cases hv : a.job.request.visitAll now ((d :: rest).take s.batchSize) rs 0 with
    | mk rs' outcome =>
    cases outcome with
    | error e =>
      have hpass := passJob_of_error s ((d :: rest).drop s.batchSize) hv
      rw [hsplit] at hpass
      exact .inl hpass.symm
    | ok changed =>
      -- What the worker knows after the batch.
      let a' : ActiveJob :=
        { a with
          left := some ((d :: rest).drop s.batchSize)
          modified := a.modified + changed }
      have hpos : 1 ≤ s.batchSize := Nat.le_max_right _ _
      have hfewer : ((d :: rest).drop s.batchSize).length < (d :: rest).length := by
        rw [List.length_drop, List.length_cons]
        omega
      have hworking : ((s.setSpace a.job.request.selection.ns rs').noteJob a').Working a'
          ((d :: rest).drop s.batchSize) rs' :=
        ⟨JobPool.find?_update a' h.active, rfl,
          (space?_setSpace s _ _ rs').trans (if_pos rfl)⟩
      have hpass : ((s.setSpace a.job.request.selection.ns rs').noteJob a').passJob now a'
          ((d :: rest).drop s.batchSize) rs' = s.passJob now a (d :: rest) rs := by
        rw [← hsplit, passJob_of_ok a'.left hv, hsplit]
        exact passJob_noteJob s now a' _ rs' rs'
      exact .inr ⟨a', _, rs', rfl, hworking, hfewer, hpass⟩

/-! ## All steps of a worker -/

/-- The first of several steps. -/
theorem run_succ (s : Store) (now : Instant) (id n : Nat) :
    Moment.run ⟨s, now⟩ (List.replicate (n + 1) (.stepJob id)) =
      Moment.run ⟨s.stepJob now id, now⟩ (List.replicate n (.stepJob id)) := rfl

/-- A worker that has ended its job takes no more steps. -/
theorem run_of_ended (h : s.pool.find? id = none) (now : Instant) (n : Nat) :
    Moment.run ⟨s, now⟩ (List.replicate n (.stepJob id)) = ⟨s, now⟩ := by
  induction n with
  | zero => rfl
  | succ n ih => rw [run_succ, stepJob_of_find?_none h, ih]

theorem find?_passJob (s : Store) (now : Instant) (a : ActiveJob) (ds : List Digest)
    (rs : Records) : (s.passJob now a ds rs).pool.find? a.job.id = none :=
  JobPool.find?_release a.job.id s.pool

/-- Enough steps of the worker end the job as one pass over the digests that are left. -/
theorem Working.run (h : s.Working a ds rs) (hwf : s.WellFormed) (now : Instant) :
    ∃ n, ∀ m, n ≤ m → Moment.run ⟨s, now⟩ (List.replicate m (.stepJob a.job.id)) =
      ⟨s.passJob now a ds rs, now⟩ := by
  induction hn : ds.length using Nat.strongRecOn generalizing s a ds rs with
  | _ n ih =>
    rcases h.step hwf now with hend | ⟨a', ds', rs', hid, hworking, hfewer, hpass⟩
    · refine ⟨1, fun m hm => ?_⟩
      obtain ⟨k, rfl⟩ := Nat.exists_eq_add_of_le' hm
      rw [run_succ, hend, run_of_ended (find?_passJob s now a ds rs)]
    · obtain ⟨n', hrun⟩ := ih ds'.length (hn ▸ hfewer) hworking (stepJob_wellFormed hwf now _) rfl
      simp only [hid, hpass] at hrun
      refine ⟨n' + 1, fun m hm => ?_⟩
      obtain ⟨k, rfl⟩ := Nat.exists_eq_add_of_le' hm
      rw [← Nat.add_assoc, run_succ]
      exact hrun (k + n') (Nat.le_add_left n' k)

/-- Enough steps of a worker that has just taken a job end it as one pass over the live records of
its set. -/
theorem run_fresh {job : Job} (hactive : s.pool.find? job.id = some { job })
    (hrs : s.space? job.request.selection.ns = some rs) (hwf : s.WellFormed) (now : Instant) :
    ∃ n, ∀ m, n ≤ m → Moment.run ⟨s, now⟩ (List.replicate m (.stepJob job.id)) =
      ⟨s.passJob now { job } (job.request.candidates now rs) rs, now⟩ := by
  let a : ActiveJob := { job, left := some (job.request.candidates now rs) }
  have hstep : s.stepJob now job.id = s.noteJob a :=
    stepJob_of_taken (a := { job }) hactive rfl hrs now
  have hworking : (s.noteJob a).Working a (job.request.candidates now rs) rs :=
    ⟨JobPool.find?_update a hactive, rfl, hrs⟩
  have hpass : (s.noteJob a).passJob now a (job.request.candidates now rs) rs =
      s.passJob now { job } (job.request.candidates now rs) rs := by
    have hnote := passJob_noteJob s now a (job.request.candidates now rs) rs rs
    rw [hwf.setSpace_self hrs] at hnote
    rw [hnote]
    rfl
  obtain ⟨n, hrun⟩ := hworking.run (hwf.of_spaces rfl) now
  refine ⟨n + 1, fun m hm => ?_⟩
  obtain ⟨k, rfl⟩ := Nat.exists_eq_add_of_le' hm
  rw [← Nat.add_assoc, run_succ, hstep, ← hpass]
  exact hrun (k + n) (Nat.le_add_left n k)

end Store
end RecordService
