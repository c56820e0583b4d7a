import RecordService.Proofs.Job.Numbers
import RecordService.Proofs.Job.Pass
import RecordService.Proofs.Store.Generation

/-!
# The changes of a run, one after the other

Between two batches of a job clients and other jobs change the store. All that changes it is a
sequence of changes of single records, and each is decided on the record as those before it have
left it.

* `Effect`: a change of one record. `Effect.Valid`: it is what its origin decides on what is there.
* `Effect.Valid.cases`: all that a change can be. `Effect.Valid.stores`: all that it can store.
  `Effect.Valid.record?_cases`: all that can be stored behind it.
* `WriteCall.effects`, `Store.batchEffects`, `Moment.effects`: the changes of one event.
* `Moment.log`: the changes of a sequence of events.
* `Moment.run_replays`: the log, made change by change, is valid throughout and leads to the records
  of the run.
-/

namespace RecordService

/-- Who has decided on a change. -/
inductive Origin
  | client (w : WriteCall)
  | job (job : Job)

/-- A change at a digest, and the live record that was found there. -/
structure Effect where
  origin : Origin
  now : Instant
  ns : String
  digest : Digest
  found : Option StoredRecord
  change : Change

namespace Effect

/-- Makes the change. -/
def replay (s : Store) (x : Effect) : Store :=
  match s.space? x.ns with
  | some rs => s.setSpace x.ns (rs.change x.digest x.change)
  | none => s

/-- The change is decided on the live record that is in the store. A job finds one that passes its
filter, applies its operations once, and counts the generation up by one. -/
def Valid (s : Store) (x : Effect) : Prop :=
  (s.space? x.ns).isSome ∧ s.live? x.now x.ns x.digest = x.found ∧
    match x.origin with
    | .client w =>
      x.ns = w.address.ns ∧ x.digest = w.address.digest ∧
        ∃ a, w.decide x.now x.found = .ok (a, x.change)
    | .job job =>
      x.ns = job.request.selection.ns ∧ ∃ r done, x.found = some r ∧
        r.passes job.request.selection.filter ∧
        Operation.applyAll job.request.ops r.bins = .ok done ∧
        x.change = if done.bins.isEmpty then .remove
          else .store { r with bins := done.bins, generation := r.generation + 1 }

theorem replay_of_space? {s : Store} {x : Effect} {rs : Records} (h : s.space? x.ns = some rs) :
    x.replay s = s.setSpace x.ns (rs.change x.digest x.change) := by
  rw [replay, h]

/-- What a change leads to depends on the records only. -/
theorem replay_spaces {s t : Store} (h : s.spaces = t.spaces) (x : Effect) :
    (x.replay s).spaces = (x.replay t).spaces := by
  have hspace : s.space? x.ns = t.space? x.ns := by rw [Store.space?, Store.space?, h]
  unfold replay
  rw [hspace]
  cases t.space? x.ns with
  | none => exact h
  | some rs => simp only [Store.setSpace, h]

theorem foldl_replay_spaces {s t : Store} (h : s.spaces = t.spaces) (xs : List Effect) :
    (xs.foldl replay s).spaces = (xs.foldl replay t).spaces := by
  induction xs generalizing s t with
  | nil => exact h
  | cons x rest ih => exact ih (replay_spaces h x)

theorem Valid.of_spaces {s t : Store} {x : Effect} (h : x.Valid s) (hst : s.spaces = t.spaces) :
    x.Valid t := by
  have hspace : t.space? x.ns = s.space? x.ns := by rw [Store.space?, Store.space?, hst]
  unfold Valid Store.live? at h ⊢
  rw [hspace]
  exact h

/-- The change is at a digest of a namespace. -/
def isAt (ns : String) (d : Digest) (x : Effect) : Bool := x.ns == ns && x.digest == d

/-- All that a change can be: a put stores its bins or removes a record that would have none, a
delete removes, an operate keeps the record if its operations only report and otherwise stores or
removes it, and so does a job, which has found a record that passes its filter. -/
theorem Valid.cases {s : Store} {x : Effect} (h : x.Valid s) :
    (∃ address given options, x.origin = .client (.put address given options) ∧
        x.digest = address.digest ∧ Cell.checkPut x.found options = .ok () ∧
        ((Cell.putBins x.found options.mode given = [] ∧ x.change = .remove) ∨
          (Cell.putBins x.found options.mode given ≠ [] ∧
            x.change = .store ⟨address.set, Cell.storedKey address.key,
              Cell.putBins x.found options.mode given, (x.found.map (·.generation)).getD 0 + 1,
              Cell.expiry options.ttl (x.found.bind (·.expiresAt)) x.now⟩))) ∨
      (∃ address options, x.origin = .client (.delete address options) ∧
        x.digest = address.digest ∧ x.change = .remove) ∨
      (∃ address ops options done, x.origin = .client (.operate address ops options) ∧
        x.digest = address.digest ∧ Cell.checkOperate x.found ops options = .ok () ∧
        Operation.applyAll ops (x.found.getD (Cell.fresh address)).bins = .ok done ∧
        ((done.modified = false ∧ x.change = .keep) ∨
          (done.modified ∧ done.bins = [] ∧ x.change = .remove) ∨
          (done.modified ∧ done.bins ≠ [] ∧ x.change =
            .store (Cell.modified x.now options done.bins
              (x.found.getD (Cell.fresh address)))))) ∨
      ∃ job r done, x.origin = .job job ∧ x.found = some r ∧
        r.passes job.request.selection.filter ∧
        Operation.applyAll job.request.ops r.bins = .ok done ∧
        ((done.bins = [] ∧ x.change = .remove) ∨
          (done.bins ≠ [] ∧
            x.change = .store { r with bins := done.bins, generation := r.generation + 1 })) := by
  obtain ⟨-, -, horigin⟩ := h
  cases hx : x.origin with
  | client w =>
    rw [hx] at horigin
    obtain ⟨-, hdigest, a, hdecide⟩ := horigin
    cases w with
    | put address given options =>
      obtain ⟨⟨_, c⟩, hput, hc⟩ := map_eq_ok_iff.mp hdecide
      obtain ⟨-, hc⟩ := Prod.mk.inj hc
      exact .inl ⟨address, given, options, rfl, hdigest, hc ▸ Cell.put_cases hput⟩
    | delete address options =>
      obtain ⟨⟨_, c⟩, hdelete, hc⟩ := map_eq_ok_iff.mp hdecide
      obtain ⟨-, hc⟩ := Prod.mk.inj hc
      exact .inr (.inl ⟨address, options, rfl, hdigest, hc ▸ (Cell.delete_cases hdelete).1⟩)
    | operate address ops options =>
      obtain ⟨⟨_, c⟩, hoperate, hc⟩ := map_eq_ok_iff.mp hdecide
      obtain ⟨-, hc⟩ := Prod.mk.inj hc
      obtain ⟨hcheck, done, hdone, hcases⟩ := Cell.operate_cases hoperate
      exact .inr (.inr (.inl
        ⟨address, ops, options, done, rfl, hdigest, hcheck, hdone, hc ▸ hcases⟩))
  | job job =>
    rw [hx] at horigin
    obtain ⟨-, r, done, hfound, hpasses, hdone, hchange⟩ := horigin
    refine .inr (.inr (.inr ⟨job, r, done, rfl, hfound, hpasses, hdone, ?_⟩))
    rw [hchange]
    by_cases hbins : done.bins = []
    · exact .inl ⟨hbins, if_pos (List.isEmpty_iff.mpr hbins)⟩
    · exact .inr ⟨hbins, if_neg fun hnone => hbins (List.isEmpty_iff.mp hnone)⟩

/-- What a change stores: the bins that a put comes to, or what operations make of the record that
was found. Each counts the generation up by one, from nothing where no record was found, and only a
client has a say in the expiry. -/
theorem Valid.stores {s : Store} {x : Effect} {r : StoredRecord} (h : x.Valid s)
    (hr : x.change = .store r) :
    (∃ address given options, x.origin = .client (.put address given options) ∧
        x.digest = address.digest ∧ Cell.putBins x.found options.mode given ≠ [] ∧
        r = ⟨address.set, Cell.storedKey address.key, Cell.putBins x.found options.mode given,
          (x.found.map (·.generation)).getD 0 + 1,
          Cell.expiry options.ttl (x.found.bind (·.expiresAt)) x.now⟩) ∨
      (∃ address ops options done, x.origin = .client (.operate address ops options) ∧
        x.digest = address.digest ∧
        Operation.applyAll ops (x.found.getD (Cell.fresh address)).bins = .ok done ∧
        done.modified ∧ done.bins ≠ [] ∧
        r = Cell.modified x.now options done.bins (x.found.getD (Cell.fresh address))) ∨
      ∃ job r' done, x.origin = .job job ∧ x.found = some r' ∧
        Operation.applyAll job.request.ops r'.bins = .ok done ∧ done.bins ≠ [] ∧
        r = { r' with bins := done.bins, generation := r'.generation + 1 } := by
  rcases h.cases with
    ⟨address, given, options, horigin, hdigest, -, ⟨-, hc⟩ | ⟨hbins, hc⟩⟩ |
    ⟨address, options, -, -, hc⟩ |
    ⟨address, ops, options, done, horigin, hdigest, -, hdone,
      ⟨-, hc⟩ | ⟨-, -, hc⟩ | ⟨hmodified, hbins, hc⟩⟩ |
    ⟨job, r', done, horigin, hfound, -, hdone, ⟨-, hc⟩ | ⟨hbins, hc⟩⟩
  · cases hc.symm.trans hr
  · cases hc.symm.trans hr
    exact .inl ⟨address, given, options, horigin, hdigest, hbins, rfl⟩
  · cases hc.symm.trans hr
  · cases hc.symm.trans hr
  · cases hc.symm.trans hr
  · cases hc.symm.trans hr
    exact .inr (.inl
      ⟨address, ops, options, done, horigin, hdigest, hdone, hmodified, hbins, rfl⟩)
  · cases hc.symm.trans hr
  · cases hc.symm.trans hr
    exact .inr (.inr ⟨job, r', done, horigin, hfound, hdone, hbins, rfl⟩)

/-- A change has found a record that is stored, or none. -/
theorem Valid.mem_of_found {s : Store} {x : Effect} {r : StoredRecord} (h : x.Valid s)
    (hr : x.found = some r) :
    ∃ rs, s.space? x.ns = some rs ∧ (x.digest, r) ∈ rs ∧ r.isLive x.now := by
  obtain ⟨hsome, hlive, -⟩ := h
  obtain ⟨rs, hrs⟩ := Option.isSome_iff_exists.mp hsome
  rw [Store.live?, hrs, Option.bind_some, hr] at hlive
  exact ⟨rs, hrs, Records.mem_of_live? hlive, (Option.filter_eq_some_iff.mp hlive).2⟩

theorem Valid.wellFormed {s : Store} {x : Effect} (h : x.Valid s) (hwf : s.WellFormed) :
    (x.replay s).WellFormed := by
  obtain ⟨rs, hrs⟩ := Option.isSome_iff_exists.mp h.1
  have hfound : ∀ r ∈ x.found, Ordered.Sorted r.bins := fun r hr => by
    obtain ⟨rs', hrs', hmem, -⟩ := h.mem_of_found hr
    exact (hwf.space? hrs').bins _ hmem
  rw [replay_of_space? hrs]
  refine hwf.setSpace _ ((hwf.space? hrs).change _ ?_)
  cases hchange : x.change with
  | keep | remove => trivial
  | store r =>
    rcases h.stores hchange with ⟨address, given, options, -, -, -, rfl⟩ |
      ⟨address, ops, options, done, -, -, hdone, -, -, rfl⟩ | ⟨job, r', done, -, hr', hdone, -, rfl⟩
    · exact Cell.putBins_sorted hfound options.mode given
    · refine Operation.applyFrom_sorted ?_ hdone
      cases hx : x.found with
      | none => exact List.Pairwise.nil
      | some r => exact hfound r hx
    · exact Operation.applyFrom_sorted (hfound r' hr') hdone

/-- A change keeps the records at all other places. -/
theorem record?_replay_of_ne {x : Effect} {ns : String} {d : Digest} (h : x.isAt ns d = false)
    (s : Store) : (x.replay s).record? ns d = s.record? ns d := by
  unfold replay
  cases hrs : s.space? x.ns with
  | none => rfl
  | some rs =>
    refine Store.record?_change_of_ne hrs ?_ x.change
    rintro ⟨rfl, rfl⟩
    simp [isAt] at h

/-- What a change leaves where it is made. -/
theorem record?_replay {s : Store} {x : Effect} {rs : Records} (hrs : s.space? x.ns = some rs) :
    (x.replay s).record? x.ns x.digest = Ordered.find? x.digest (rs.change x.digest x.change) := by
  rw [replay_of_space? hrs, Store.record?_setSpace, if_pos rfl]

/-- The record that a change has found is the one that is stored. -/
theorem Valid.record?_of_found {s : Store} {x : Effect} {r : StoredRecord} (h : x.Valid s)
    (hwf : s.WellFormed) (hr : x.found = some r) : s.record? x.ns x.digest = some r := by
  obtain ⟨rs, hrs, hmem, -⟩ := h.mem_of_found hr
  rw [Store.record?, hrs, Option.bind_some]
  exact (Ordered.find?_eq_some_iff (hwf.space? hrs).sorted).mpr hmem

/-- A record that is stored behind a change was stored before it, and the change has kept it or is
made elsewhere, or it is what the change stores, in place of the one that it has found. -/
theorem Valid.record?_cases {s : Store} {x : Effect} {r : StoredRecord} {ns : String} {d : Digest}
    (h : x.Valid s) (hwf : s.WellFormed) (hr : (x.replay s).record? ns d = some r) :
    (s.record? ns d = some r ∧ (x.isAt ns d = false ∨ x.change = .keep)) ∨
      (x.isAt ns d ∧ x.change = .store r ∧ ∀ r' ∈ x.found, s.record? ns d = some r') := by
  cases hat : x.isAt ns d with
  | false => exact .inl ⟨record?_replay_of_ne hat s ▸ hr, .inl rfl⟩
  | true =>
    obtain ⟨rfl, rfl⟩ : x.ns = ns ∧ x.digest = d := by simpa [isAt] using hat
    obtain ⟨rs, hrs⟩ := Option.isSome_iff_exists.mp h.1
    rw [record?_replay hrs] at hr
    cases hchange : x.change with
    | keep =>
      refine .inl ⟨?_, .inr rfl⟩
      rw [Store.record?, hrs, Option.bind_some]
      rwa [hchange] at hr
    | remove =>
      rw [hchange, Records.change, Ordered.find?_erase (hwf.space? hrs).sorted, if_pos rfl] at hr
      cases hr
    | store r' =>
      rw [hchange, Records.change, Ordered.find?_insert, if_pos rfl] at hr
      obtain rfl := Option.some.inj hr
      exact .inr ⟨rfl, rfl, fun r' hr' => h.record?_of_found hwf hr'⟩

end Effect

namespace Store

variable {s t : Store} {now : Instant} {xs ys : List Effect}

/-- Each of the changes is valid when those before it have been made. -/
def Replays (s : Store) : List Effect → Prop
  | [] => True
  | x :: rest => x.Valid s ∧ (x.replay s).Replays rest

theorem Replays.of_spaces (h : s.Replays xs) (hst : s.spaces = t.spaces) : t.Replays xs := by
  induction xs generalizing s t with
  | nil => trivial
  | cons x rest ih => exact ⟨h.1.of_spaces hst, ih h.2 (Effect.replay_spaces hst x)⟩

theorem Replays.append (h : s.Replays xs) (h' : (xs.foldl Effect.replay s).Replays ys) :
    s.Replays (xs ++ ys) := by
  induction xs generalizing s with
  | nil => exact h'
  | cons x rest ih => exact ⟨h.1, ih h.2 h'⟩

theorem Replays.of_append (h : s.Replays (xs ++ ys)) :
    (xs.foldl Effect.replay s).Replays ys := by
  induction xs generalizing s with
  | nil => exact h
  | cons x rest ih => exact ih h.2

theorem Replays.of_prefix (h : s.Replays (xs ++ ys)) : s.Replays xs := by
  induction xs generalizing s with
  | nil => trivial
  | cons x rest ih => exact ⟨h.1, ih h.2⟩

theorem Replays.wellFormed (h : s.Replays xs) (hwf : s.WellFormed) :
    (xs.foldl Effect.replay s).WellFormed := by
  induction xs generalizing s with
  | nil => exact hwf
  | cons x rest ih => exact ih h.2 (h.1.wellFormed hwf)

theorem Replays.valid_of_mem {x : Effect} (h : s.Replays xs) (hx : x ∈ xs) : ∃ s, x.Valid s := by
  obtain ⟨front, back, rfl⟩ := List.append_of_mem hx
  exact ⟨_, h.of_append.1⟩

/-- What a past tells of the record in a place is told by a log of changes if each of them adds to
the past what it makes of the record. -/
theorem Replays.tells (past : List Effect) {ns : String} {d : Digest}
    {P : List Effect → StoredRecord → Prop} (h : s.Replays xs) (hwf : s.WellFormed)
    (hstep : ∀ s x past, Effect.Valid s x → s.WellFormed →
      (∀ r, s.record? ns d = some r → P past r) →
      ∀ r, (x.replay s).record? ns d = some r → P (past ++ [x]) r)
    (hs : ∀ r, s.record? ns d = some r → P past r) :
    ∀ r, (xs.foldl Effect.replay s).record? ns d = some r → P (past ++ xs) r := by
  induction xs generalizing s past with
  | nil =>
    rw [List.append_nil]
    exact hs
  | cons x rest ih =>
    rw [List.append_cons]
    exact ih (past ++ [x]) h.2 (h.1.wellFormed hwf) (hstep s x past h.1 hwf hs)

end Store

/-! ## Writes of clients -/

namespace WriteCall

variable {w : WriteCall} {now : Instant} {s : Store}

/-- The change that a write makes, if it is not refused. -/
def effects (now : Instant) (s : Store) (w : WriteCall) : List Effect :=
  if w.isEmpty then []
  else
    match s.access, s.space w.address.ns with
    | .ok _, .ok rs =>
      let found := rs.live? now w.address.digest
      match w.decide now found with
      | .ok (_, change) => [⟨.client w, now, w.address.ns, w.address.digest, found, change⟩]
      | .error _ => []
    | _, _ => []

/-- A write is refused and makes no change, or it makes one and succeeds or is left in doubt. -/
theorem effects_cases (w : WriteCall) (now : Instant) (s : Store) :
    (∃ e, w.run now s = (.error e, s) ∧ w.effects now s = []) ∨
      ∃ (doubt : Bool) (rs : Records) (a : WriteAnswer) (c : Change),
        s.space? w.address.ns = some rs ∧
        w.decide now (rs.live? now w.address.digest) = .ok (a, c) ∧
        w.effects now s =
          [⟨.client w, now, w.address.ns, w.address.digest, rs.live? now w.address.digest, c⟩] ∧
        w.run now s =
          (if doubt then .error (.timeout true) else .ok a,
            s.setSpace w.address.ns (rs.change w.address.digest c)) := by
  rw [run_eq]
  unfold effects Store.write
  cases w.isEmpty with
  | true => exact .inl ⟨_, rfl, rfl⟩
  | false =>
    simp only [Bool.false_eq_true, if_false]
    cases s.access with
    | error e => exact .inl ⟨e, rfl, rfl⟩
    | ok doubt =>
      cases hspace : s.space w.address.ns with
      | error e => exact .inl ⟨e, rfl, rfl⟩
      | ok rs =>
        simp only []
        cases hdecide : w.decide now (rs.live? now w.address.digest) with
        | error e => exact .inl ⟨e, rfl, rfl⟩
        | ok p =>
          exact .inr ⟨doubt, rs, p.1, p.2, Store.space_eq_ok_iff.mp hspace, hdecide, rfl, rfl⟩

/-- The changes of a write lead to the store that it leaves. -/
theorem effects_replay (w : WriteCall) (now : Instant) (s : Store) :
    s.Replays (w.effects now s) ∧ (w.effects now s).foldl Effect.replay s = (w.run now s).2 := by
  rcases w.effects_cases now s with
    ⟨e, hrun, heffects⟩ | ⟨doubt, rs, a, c, hrs, hdecide, heffects, hrun⟩
  · rw [heffects, hrun]
    exact ⟨trivial, rfl⟩
  · rw [heffects, hrun]
    refine ⟨⟨⟨?_, ?_, rfl, rfl, a, hdecide⟩, trivial⟩, ?_⟩
    · simp only [hrs, Option.isSome_some]
    · simp only [Store.live?, hrs, Option.bind_some]
    · exact Effect.replay_of_space? hrs

end WriteCall

/-! ## Batches of jobs -/

namespace JobRequest

variable {request : JobRequest} {now : Instant} {rs : Records} {ds : List Digest}

/-- The records that a job changes when it visits digests in order, as it finds them. -/
def applied (now : Instant) (request : JobRequest) :
    List Digest → Records → List (Digest × StoredRecord × Change)
  | [], _ => []
  | d :: rest, rs =>
    match request.target? now rs d with
    | none => applied now request rest rs
    | some r =>
      match Cell.applyJob request.ops r with
      | .error _ => []
      | .ok c => (d, r, c) :: applied now request rest (rs.change d c)

/-- The records that are changed are counted, and are visited in order. -/
theorem applied_count (now : Instant) (request : JobRequest) (ds : List Digest) (rs : Records)
    (changed : Nat) :
    ((request.applied now ds rs).map (·.1)).Sublist ds ∧
      ∀ n, (request.visitAll now ds rs changed).2 = .ok n →
        n = changed + (request.applied now ds rs).length := by
  induction ds generalizing rs changed with
  | nil =>
    refine ⟨List.Sublist.refl _, fun n h => ?_⟩
    cases h
    rfl
  | cons d rest ih =>
    cases hr : request.target? now rs d with
    | none =>
      obtain ⟨hsub, hcount⟩ := ih rs changed
      simp only [applied, hr, visitAll_of_missed hr]
      exact ⟨hsub.cons d, hcount⟩
    | some r =>
      cases hc : Cell.applyJob request.ops r with
      | error e =>
        simp only [applied, hr, hc, visitAll_of_refused hr hc]
        exact ⟨List.nil_sublist _, fun _ h => nomatch h⟩
      | ok c =>
        obtain ⟨hsub, hcount⟩ := ih (rs.change d c) (changed + 1)
        simp only [applied, hr, hc, visitAll_of_changed hr hc, List.map_cons, List.length_cons]
        refine ⟨hsub.cons_cons d, fun n h => ?_⟩
        rw [hcount n h, Nat.add_assoc, Nat.add_comm 1]

end JobRequest

/-- A change that a job makes. -/
def Job.effect (now : Instant) (job : Job) (x : Digest × StoredRecord × Change) : Effect :=
  ⟨.job job, now, job.request.selection.ns, x.1, some x.2.1, x.2.2⟩

/-- The changes of a batch lead to the records that it leaves. -/
theorem Job.effects_replay {s : Store} {rs : Records} (job : Job) (now : Instant)
    (ds : List Digest) (hwf : s.WellFormed)
    (hrs : s.space? job.request.selection.ns = some rs) (changed : Nat) :
    s.Replays ((job.request.applied now ds rs).map (job.effect now)) ∧
      ((job.request.applied now ds rs).map (job.effect now)).foldl Effect.replay s =
        s.setSpace job.request.selection.ns (job.request.visitAll now ds rs changed).1 := by
  induction ds generalizing s rs changed with
  | nil => exact ⟨trivial, (hwf.setSpace_self hrs).symm⟩
  | cons d rest ih =>
    cases hr : job.request.target? now rs d with
    | none =>
      simp only [JobRequest.applied, hr, JobRequest.visitAll_of_missed hr]
      exact ih hwf hrs changed
    | some r =>
      obtain ⟨hlive, hpasses⟩ := Option.filter_eq_some_iff.mp hr
      cases hc : Cell.applyJob job.request.ops r with
      | error e =>
        simp only [JobRequest.applied, hr, hc, JobRequest.visitAll_of_refused hr hc]
        exact ⟨trivial, (hwf.setSpace_self hrs).symm⟩
      | ok c =>
        simp only [JobRequest.applied, hr, hc, JobRequest.visitAll_of_changed hr hc, List.map_cons,
          List.foldl_cons]
        have hreplay : (job.effect now (d, r, c)).replay s =
            s.setSpace job.request.selection.ns (rs.change d c) := Effect.replay_of_space? hrs
        have hwf' : (rs.change d c).WellFormed :=
          (hwf.space? hrs).change d
            (Cell.applyJob_wellFormed ((hwf.space? hrs).live_bins now d r hlive) hc)
        have hspace : (s.setSpace job.request.selection.ns (rs.change d c)).space?
            job.request.selection.ns = some (rs.change d c) :=
          (Store.space?_setSpace s _ _ _).trans (if_pos rfl)
        obtain ⟨hvalid, hfold⟩ := ih (hwf.setSpace _ hwf') hspace (changed + 1)
        rw [hreplay]
        refine ⟨⟨⟨?_, ?_, rfl, ?_⟩, hreplay ▸ hvalid⟩,
          hfold.trans (Store.setSpace_setSpace s _ _ _)⟩
        · simp only [Job.effect, hrs, Option.isSome_some]
        · simp only [Job.effect, Store.live?, hrs, Option.bind_some, hlive]
        · obtain ⟨done, hdone, ⟨hempty, rfl⟩ | ⟨hsome, rfl⟩⟩ := Cell.applyJob_cases hc
          · exact ⟨r, done, rfl, hpasses, hdone, (if_pos (List.isEmpty_iff.mpr hempty)).symm⟩
          · exact ⟨r, done, rfl, hpasses, hdone,
              (if_neg fun hnone => hsome (List.isEmpty_iff.mp hnone)).symm⟩

namespace Store

/-- The changes of the next step of the worker of a job. -/
def batchEffects (now : Instant) (id : Nat) (s : Store) : List Effect :=
  match s.pool.find? id with
  | none => []
  | some a =>
    match s.space? a.job.request.selection.ns, a.left with
    | some rs, some ds =>
      (a.job.request.applied now (ds.take s.batchSize) rs).map (a.job.effect now)
    | _, _ => []

variable {s : Store} {now : Instant} {id : Nat}

/-- All that a step of the worker of a job can do. -/
theorem stepJob_cases (now : Instant) (id : Nat) (s : Store) :
    (s.pool.find? id = none ∧ s.stepJob now id = s ∧ s.batchEffects now id = []) ∨
      ∃ a, s.pool.find? id = some a ∧ a.job.id = id ∧
        ((∃ outcome, s.stepJob now id = s.endJob now id outcome ∧ s.batchEffects now id = [] ∧
            ∀ n, outcome = .done n → a.left = some [] ∧ n = a.modified) ∨
          (∃ rs, a.left = none ∧ s.space? a.job.request.selection.ns = some rs ∧
            s.stepJob now id =
              s.noteJob { a with left := some (a.job.request.candidates now rs) } ∧
            s.batchEffects now id = []) ∨
          ∃ ds rs, a.left = some ds ∧ ds ≠ [] ∧
            s.space? a.job.request.selection.ns = some rs ∧
            s.stepJob now id = s.stepBatch now a ds rs ∧
            s.batchEffects now id =
              (a.job.request.applied now (ds.take s.batchSize) rs).map (a.job.effect now)) := by
  unfold batchEffects
  obtain ⟨hnone, h⟩ | ⟨a, hfound, hid, hstep⟩ := s.stepJob_inv now id
  · exact .inl ⟨hnone, h, by rw [hnone]⟩
  · refine .inr ⟨a, hfound, hid, ?_⟩
    rw [hfound]
    obtain ⟨reason, hrs, h⟩ | ⟨rs, hrs, ⟨hleft, h⟩ | ⟨hleft, h⟩ | ⟨d, rest, hleft, h⟩⟩ := hstep
    · exact .inl ⟨_, h, by simp only [hrs], nofun⟩
    · exact .inr (.inl ⟨rs, hleft, hrs, h, by simp only [hrs, hleft]⟩)
    · refine .inl ⟨_, h, ?_, fun n hn => ?_⟩
      · simp only [hrs, hleft, List.take_nil, JobRequest.applied, List.map_nil]
      · cases hn
        exact ⟨hleft, rfl⟩
    · exact .inr (.inr ⟨d :: rest, rs, hleft, List.cons_ne_nil _ _, hrs, h,
        by simp only [hrs, hleft]⟩)

theorem stepBatch_spaces (s : Store) (now : Instant) (a : ActiveJob) (ds : List Digest)
    (rs : Records) :
    (s.stepBatch now a ds rs).spaces =
      (s.setSpace a.job.request.selection.ns
        (a.job.request.visitAll now (ds.take s.batchSize) rs 0).1).spaces := by
  unfold stepBatch
  cases hv : a.job.request.visitAll now (ds.take s.batchSize) rs 0 with
  | mk rs' outcome =>
    simp only [hv]
    cases outcome <;> rfl

/-- The changes of a step of a worker lead to the records that it leaves. -/
theorem batchEffects_replay (hwf : s.WellFormed) (now : Instant) (id : Nat) :
    s.Replays (s.batchEffects now id) ∧
      ((s.batchEffects now id).foldl Effect.replay s).spaces = (s.stepJob now id).spaces := by
  rcases s.stepJob_cases now id with
    ⟨-, hstep, heffects⟩ | ⟨a, -, -, ⟨outcome, hstep, heffects, -⟩ | ⟨rs, -, -, hstep, heffects⟩ |
      ⟨ds, rs, -, -, hrs, hstep, heffects⟩⟩
  · rw [hstep, heffects]
    exact ⟨trivial, rfl⟩
  · rw [hstep, heffects]
    exact ⟨trivial, rfl⟩
  · rw [hstep, heffects]
    exact ⟨trivial, rfl⟩
  · obtain ⟨hvalid, hfold⟩ := a.job.effects_replay now (ds.take s.batchSize) hwf hrs 0
    rw [hstep, heffects]
    exact ⟨hvalid, (congrArg Store.spaces hfold).trans (s.stepBatch_spaces now a ds rs).symm⟩

end Store

/-! ## Whole runs -/

/-- The write of a client that an event is. -/
def StoreEvent.write? : StoreEvent → Option WriteCall
  | .put address bins options => some (.put address bins options)
  | .delete address options => some (.delete address options)
  | .operate address ops options => some (.operate address ops options)
  | _ => none

namespace Moment

variable {m : Moment} {e : StoreEvent}

/-- The changes of an event. -/
def effects (m : Moment) (e : StoreEvent) : List Effect :=
  match e with
  | .stepJob id => m.store.batchEffects m.now id
  | _ => e.write?.elim [] (WriteCall.effects m.now m.store)

/-- The changes of a sequence of events, in order. -/
def log (m : Moment) : List StoreEvent → List Effect
  | [] => []
  | e :: rest => m.effects e ++ (m.after e).log rest

theorem log_append (m : Moment) (events later : List StoreEvent) :
    m.log (events ++ later) = m.log events ++ (m.run events).log later := by
  induction events generalizing m with
  | nil => rfl
  | cons e rest ih =>
    rw [List.cons_append, log, log, ih, List.append_assoc]
    rfl

/-- An event that is a write leaves what the write leaves. -/
theorem after_write {w : WriteCall} (h : e.write? = some w) :
    m.after e = { m with store := (w.run m.now m.store).2 } ∧
      m.effects e = w.effects m.now m.store := by
  cases e with
  | put address bins options =>
    cases h
    exact ⟨rfl, rfl⟩
  | delete address options =>
    cases h
    exact ⟨rfl, rfl⟩
  | operate address ops options =>
    cases h
    exact ⟨rfl, rfl⟩
  | _ => cases h

/-- A change of an event is decided on by the client whose write the event is, or by the job whose
worker takes a step. -/
theorem origin_of_mem_effects {x : Effect} (hx : x ∈ m.effects e) :
    (∃ w, e.write? = some w ∧ x.origin = .client w) ∨
      ∃ id a, e = .stepJob id ∧ m.store.pool.find? id = some a ∧ x.origin = .job a.job := by
  cases hw : e.write? with
  | some w =>
    rw [(after_write (m := m) hw).2] at hx
    rcases w.effects_cases m.now m.store with ⟨_, -, hnone⟩ | ⟨_, _, _, _, -, -, hone, -⟩
    · rw [hnone] at hx
      cases hx
    · rw [hone] at hx
      obtain rfl := List.mem_singleton.mp hx
      exact .inl ⟨w, rfl, rfl⟩
  | none =>
    cases e with
    | stepJob id =>
      rcases m.store.stepJob_cases m.now id with
        ⟨-, -, hnone⟩ | ⟨a, ha, -, ⟨_, -, hnone, -⟩ | ⟨_, -, -, -, hnone⟩ |
          ⟨_, _, -, -, -, -, hbatch⟩⟩
      · rw [effects, hnone] at hx
        cases hx
      · rw [effects, hnone] at hx
        cases hx
      · rw [effects, hnone] at hx
        cases hx
      · rw [effects, hbatch] at hx
        obtain ⟨y, -, rfl⟩ := List.mem_map.mp hx
        exact .inr ⟨id, a, rfl, ha, rfl⟩
    | put | delete | operate => cases hw
    | startJob | dispatch | pause | node | fault | clock => cases hx

/-- The changes of an event lead to the records that it leaves. -/
theorem effects_replay (hwf : m.store.WellFormed) (e : StoreEvent) :
    m.store.Replays (m.effects e) ∧
      ((m.effects e).foldl Effect.replay m.store).spaces = (m.after e).store.spaces := by
  cases hw : e.write? with
  | some w =>
    obtain ⟨hafter, heffects⟩ := after_write (m := m) hw
    obtain ⟨hvalid, hfold⟩ := w.effects_replay m.now m.store
    rw [hafter, heffects]
    exact ⟨hvalid, congrArg Store.spaces hfold⟩
  | none =>
    cases e with
    | stepJob id => exact Store.batchEffects_replay hwf m.now id
    | startJob request => exact ⟨trivial, (Store.startJob_spaces m.now request m.store).symm⟩
    | put | delete | operate => cases hw
    | dispatch | pause | node | fault | clock => exact ⟨trivial, rfl⟩

/-- Where an event has found no record there is none before it: a client makes one change, and a job
changes only what it has found. -/
theorem live?_of_found_none {x : Effect} (hwf : m.store.WellFormed) (hx : x ∈ m.effects e)
    (hnone : x.found = none) : m.store.live? m.now x.ns x.digest = none := by
  rcases origin_of_mem_effects hx with ⟨w, hw, -⟩ | ⟨id, a, -, -, horigin⟩
  · rw [(after_write (m := m) hw).2] at hx
    rcases w.effects_cases m.now m.store with ⟨_, -, hrefused⟩ | ⟨_, rs, _, _, hrs, -, hone, -⟩
    · rw [hrefused] at hx
      cases hx
    · rw [hone] at hx
      obtain rfl := List.mem_singleton.mp hx
      rw [Store.live?, hrs, Option.bind_some]
      exact hnone
  · obtain ⟨_, -, -, hvalid⟩ := (effects_replay hwf e).1.valid_of_mem hx
    rw [horigin] at hvalid
    obtain ⟨-, r, _, hfound, -⟩ := hvalid
    rw [hnone] at hfound
    cases hfound

/-- The changes of a run are valid one after the other, and lead to the records of the run. -/
theorem run_replays (hwf : m.store.WellFormed) (events : List StoreEvent) :
    m.store.Replays (m.log events) ∧
      ((m.log events).foldl Effect.replay m.store).spaces = (m.run events).store.spaces := by
  induction events generalizing m with
  | nil => exact ⟨trivial, rfl⟩
  | cons e rest ih =>
    obtain ⟨hvalid, hfold⟩ := effects_replay hwf e
    obtain ⟨hrest, hlog⟩ := ih (after_wellFormed hwf e)
    refine ⟨hvalid.append (hrest.of_spaces hfold.symm), ?_⟩
    rw [log, List.foldl_append, Effect.foldl_replay_spaces hfold]
    exact hlog

end Moment
end RecordService
