import RecordService.Proofs.Store.WellFormed

/-!
# Writes of clients

A put, a delete and an operate are one kind of step: the store is asked whether it answers, the
live record at the address decides, and what was decided is applied. So what all writes have in
common is proved of `Store.write` once.

* `Store.verdict`: what a write comes to where the store answers, which no fault has a part in.
* `Store.write_cases`: a write is refused and leaves the store as it is, or its verdict is applied.
* `Store.write_unchanged`: a write that fails for certain leaves the store as it is.
* `WriteCall`: the writes as data, and `WriteCall.run_eq`: each is a `Store.write`.
* `WriteCall.run_atomic`: a write that fails for certain has changed nothing, one in doubt has done
  all that it would have done, and none touches more than the one record.
-/

namespace RecordService

namespace Records

variable {rs : Records}

/-- A change at a digest leaves the records at all others. -/
theorem find?_change_of_ne {d d' : Digest} (h : d' ≠ d) (rs : Records) (c : Change) :
    Ordered.find? d' (rs.change d c) = Ordered.find? d' rs := by
  cases c with
  | keep => rfl
  | remove => exact Ordered.find?_erase_of_ne h rs
  | store r => rw [change, Ordered.find?_insert, if_neg h]

theorem live?_change_of_ne {now : Instant} {d d' : Digest} (h : d' ≠ d) (c : Change) :
    (rs.change d c).live? now d' = rs.live? now d' := by
  rw [live?, live?, find?_change_of_ne h]

end Records

namespace Store

variable {s : Store}

/-- The record that is stored at a digest of a namespace, whether or not it has expired. -/
def record? (s : Store) (ns : String) (d : Digest) : Option StoredRecord :=
  (s.space? ns).bind (Ordered.find? d)

theorem space?_setSpace (s : Store) (ns ns' : String) (rs : Records) :
    (s.setSpace ns rs).space? ns' = if ns' = ns then some rs else s.space? ns' :=
  Ordered.find?_insert ns ns' rs s.spaces

theorem record?_setSpace (s : Store) (ns ns' : String) (rs : Records) (d : Digest) :
    (s.setSpace ns rs).record? ns' d =
      if ns' = ns then Ordered.find? d rs else s.record? ns' d := by
  rw [record?, space?_setSpace]
  split <;> rfl

/-- A change of one record keeps all others. -/
theorem record?_change_of_ne {ns ns' : String} {rs : Records} {d d' : Digest}
    (hrs : s.space? ns = some rs) (h : ¬(ns' = ns ∧ d' = d)) (c : Change) :
    (s.setSpace ns (rs.change d c)).record? ns' d' = s.record? ns' d' := by
  rw [record?_setSpace]
  split
  · rename_i hns
    rw [Records.find?_change_of_ne fun hd => h ⟨hns, hd⟩, hns, record?, hrs, Option.bind_some]
  · rfl

/-- The nodes are not all down. -/
def Reachable (s : Store) : Prop := s.settings.nodes = [] ∨ ∃ node ∈ s.settings.nodes, s.isUp node

/-- A store that can be reached refuses calls only by its fault. -/
theorem access_of_reachable (h : s.Reachable) :
    s.access = match s.fault with
      | none => .ok false
      | some .unavailable => .error (.unavailable "cluster unreachable")
      | some (.timeout false) => .error (.timeout false)
      | some (.timeout true) => .ok true := by
  have hup : (!s.settings.nodes.isEmpty && !s.settings.nodes.any s.isUp) = false := by
    rcases h with hnone | hsome
    · simp [hnone]
    · simp [List.any_eq_true.mpr hsome]
  unfold access
  rw [hup]
  rfl

/-! ## One write -/

section Write

variable {α : Type} {now : Instant} {address : Address}
  {decide : Option StoredRecord → Except StoreError (α × Change)}

/-- What a write comes to where the store answers: its answer, and the records of the namespace
after it. -/
def verdict (s : Store) (now : Instant) (address : Address)
    (decide : Option StoredRecord → Except StoreError (α × Change)) :
    Except StoreError (α × Records) :=
  (s.space address.ns).bind fun rs =>
    (decide (rs.live? now address.digest)).map fun p => (p.1, rs.change address.digest p.2)

theorem verdict_eq_ok_iff {a : α} {rs' : Records} :
    s.verdict now address decide = .ok (a, rs') ↔
      ∃ rs c, s.space? address.ns = some rs ∧
        decide (rs.live? now address.digest) = .ok (a, c) ∧
        rs.change address.digest c = rs' := by
  unfold verdict
  simp only [bind_eq_ok_iff, map_eq_ok_iff, space_eq_ok_iff, Prod.mk.injEq, Prod.exists]
  constructor
  · rintro ⟨rs, hrs, _, c, hc, rfl, rfl⟩
    exact ⟨rs, c, hrs, hc, rfl⟩
  · rintro ⟨rs, c, hrs, hc, rfl⟩
    exact ⟨rs, hrs, a, c, hc, rfl, rfl⟩

theorem write_of_refused {e : StoreError} (h : s.access = .error e) :
    s.write now address decide = (.error e, s) := by
  rw [write, h]

/-- Where the store answers, the verdict is applied, and the answer is kept back if it is in
doubt. -/
theorem write_of_access {doubt : Bool} (h : s.access = .ok doubt) :
    s.write now address decide =
      match s.verdict now address decide with
      | .error e => (.error e, s)
      | .ok (a, rs) =>
        (if doubt then .error (.timeout true) else .ok a, s.setSpace address.ns rs) := by
  rw [write, h, verdict]
  simp only []
  cases s.space address.ns with
  | error e => rfl
  | ok rs => cases hd : decide (rs.live? now address.digest) <;> simp [Except.bind, Except.map, hd]

/-- A write is refused and leaves the store as it is, or it is applied. -/
theorem write_cases (s : Store) (now : Instant) (address : Address)
    (decide : Option StoredRecord → Except StoreError (α × Change)) :
    (∃ e, s.write now address decide = (.error e, s)) ∨
      ∃ doubt rs a c, s.access = .ok doubt ∧ s.space? address.ns = some rs ∧
        decide (rs.live? now address.digest) = .ok (a, c) ∧
        s.write now address decide =
          (if doubt then .error (.timeout true) else .ok a,
            s.setSpace address.ns (rs.change address.digest c)) := by
  cases ha : s.access with
  | error e => exact .inl ⟨e, write_of_refused ha⟩
  | ok doubt =>
    have hw : s.write now address decide = _ := write_of_access ha
    cases hv : s.verdict now address decide with
    | error e => exact .inl ⟨e, by rw [hw, hv]⟩
    | ok p =>
      obtain ⟨rs, c, hrs, hc, hrs'⟩ := verdict_eq_ok_iff.mp hv
      exact .inr ⟨doubt, rs, p.1, c, rfl, hrs, hc, by rw [hw, hv, hrs']⟩

/-- A write whose answer is an error that is not in doubt has left the store as it was. -/
theorem write_unchanged {e : StoreError} (he : (s.write now address decide).1 = .error e)
    (hdoubt : e.inDoubt = false) : (s.write now address decide).2 = s := by
  rcases s.write_cases now address decide with ⟨e', hwrite⟩ | ⟨doubt, rs, a, c, -, -, -, hwrite⟩
  · rw [hwrite]
  · rw [hwrite] at he
    cases doubt with
    | true => cases he; cases hdoubt
    | false => cases he

/-- The answer can be renamed before or after the write. -/
theorem write_map {β : Type} (f : α → β) (s : Store) (now : Instant) (address : Address)
    (decide : Option StoredRecord → Except StoreError (α × Change)) :
    (s.write now address decide).map (Except.map f) id =
      s.write now address fun live => (decide live).map fun p => (f p.1, p.2) := by
  unfold write
  cases s.access with
  | error e => rfl
  | ok doubt =>
    cases s.space address.ns with
    | error e => rfl
    | ok rs =>
      simp only []
      cases decide (rs.live? now address.digest) with
      | error e => rfl
      | ok p => cases doubt <;> rfl

end Write
end Store

/-! ## The writes as data -/

/-- A write of a client. -/
inductive WriteCall
  | put (address : Address) (bins : Bins) (options : WriteOptions)
  | delete (address : Address) (options : WriteOptions)
  | operate (address : Address) (ops : List Operation) (options : WriteOptions)

/-- The answer to a write. -/
inductive WriteAnswer
  | written
  | deleted (existed : Bool)
  | operated (record : Record)

namespace WriteCall

/-- Where the record is. -/
def address : WriteCall → Address
  | put address _ _ | delete address _ | operate address _ _ => address

/-- What is asked of the record. -/
def options : WriteCall → WriteOptions
  | put _ _ options | delete _ options | operate _ _ options => options

/-- Whether there is nothing to do: operations that are none. -/
def isEmpty : WriteCall → Bool
  | put .. | delete .. => false
  | operate _ ops _ => ops.isEmpty

/-- Makes the write. -/
def run (now : Instant) (s : Store) : WriteCall → Except StoreError WriteAnswer × Store
  | put address bins options =>
    (s.put now address bins options).map (Except.map fun _ => .written) id
  | delete address options => (s.delete now address options).map (Except.map .deleted) id
  | operate address ops options =>
    (s.operate now address ops options).map (Except.map .operated) id

/-- What the live record at the address decides. -/
def decide (now : Instant) :
    WriteCall → Option StoredRecord → Except StoreError (WriteAnswer × Change)
  | put address bins options, live =>
    (Cell.put now address bins options live).map fun p => (.written, p.2)
  | delete _ options, live => (Cell.delete options live).map fun p => (.deleted p.1, p.2)
  | operate address ops options, live =>
    (Cell.operate now address address.digest ops options live).map fun p => (.operated p.1, p.2)

variable {w : WriteCall} {now : Instant} {s : Store}

/-- Operations that are none are refused before the store is asked. All else is a write. -/
theorem run_eq (w : WriteCall) (now : Instant) (s : Store) :
    w.run now s =
      if w.isEmpty then (.error (.parameter "operation list is empty"), s)
      else s.write now w.address (w.decide now) := by
  cases w with
  | put address bins options => exact Store.write_map _ _ _ _ _
  | delete address options => exact Store.write_map _ _ _ _ _
  | operate address ops options =>
    cases hops : ops.isEmpty with
    | true => simp [run, Store.operate, isEmpty, hops, Except.map]
    | false =>
      simp only [run, Store.operate, isEmpty, hops]
      exact Store.write_map _ _ _ _ _

/-- A write is refused and leaves the store as it is, or what the live record decides is applied. -/
theorem run_cases (w : WriteCall) (now : Instant) (s : Store) :
    (∃ e, w.run now s = (.error e, s)) ∨
      ∃ doubt rs a c, s.access = .ok doubt ∧ s.space? w.address.ns = some rs ∧
        w.decide now (rs.live? now w.address.digest) = .ok (a, c) ∧
        w.run now s =
          (if doubt then .error (.timeout true) else .ok a,
            s.setSpace w.address.ns (rs.change w.address.digest c)) := by
  rw [run_eq]
  split
  · exact .inl ⟨_, rfl⟩
  · exact Store.write_cases s now w.address (w.decide now)

theorem run_wellFormed (h : s.WellFormed) (w : WriteCall) : (w.run now s).2.WellFormed := by
  cases w with
  | put address bins options => exact Store.put_wellFormed h now address bins options
  | delete address options => exact Store.delete_wellFormed h now address options
  | operate address ops options => exact Store.operate_wellFormed h now address ops options

theorem run_unchanged {e : StoreError} (he : (w.run now s).1 = .error e)
    (hdoubt : e.inDoubt = false) : (w.run now s).2 = s := by
  rw [run_eq] at he ⊢
  split
  · rfl
  · rename_i hops
    rw [if_neg hops] at he
    exact Store.write_unchanged he hdoubt

/-- A fault that leaves writes in doubt keeps back the answer, and nothing else. -/
theorem run_in_doubt (w : WriteCall) (now : Instant) (hup : s.Reachable)
    (hfault : s.fault = some (.timeout true)) :
    (w.run now s).2.spaces = (w.run now { s with fault := none }).2.spaces ∧
      (w.run now s).1 =
        (w.run now { s with fault := none }).1.bind fun _ => .error (.timeout true) := by
  have haccess : s.access = .ok true := by rw [Store.access_of_reachable hup, hfault]
  have hcalm : ({ s with fault := none } : Store).access = .ok false :=
    Store.access_of_reachable (s := { s with fault := none }) hup
  rw [run_eq, run_eq]
  split
  · exact ⟨rfl, rfl⟩
  · -- The verdict is the same, since the fault has no part in it.
    have hsame : ({ s with fault := none } : Store).verdict now w.address (w.decide now) =
        s.verdict now w.address (w.decide now) := rfl
    rw [Store.write_of_access haccess, Store.write_of_access hcalm, hsame]
    cases s.verdict now w.address (w.decide now) with
    | error e => exact ⟨rfl, rfl⟩
    | ok p => exact ⟨rfl, rfl⟩

/-- A write keeps every record but the one at its address, and every namespace. -/
theorem run_frame (w : WriteCall) (now : Instant) (s : Store) :
    (∀ ns, ((w.run now s).2.space? ns).isSome = (s.space? ns).isSome) ∧
      ∀ ns d, ¬(ns = w.address.ns ∧ d = w.address.digest) →
        (w.run now s).2.record? ns d = s.record? ns d := by
  rcases w.run_cases now s with ⟨e, hrun⟩ | ⟨doubt, rs, a, c, -, hrs, -, hrun⟩
  · rw [hrun]
    exact ⟨fun _ => rfl, fun _ _ _ => rfl⟩
  · rw [hrun]
    refine ⟨fun ns => ?_, fun ns d hne => Store.record?_change_of_ne hrs hne c⟩
    rw [Store.space?_setSpace]
    split
    · rename_i hns
      rw [hns, hrs]
      rfl
    · rfl

/-- A write that fails and is not in doubt has changed nothing. A write in doubt has changed what
it would have changed without the fault, and its answer is the timeout where it would have
succeeded. No write changes anything but the record at the digest of its address. -/
theorem run_atomic (w : WriteCall) (now : Instant) (s : Store) :
    (∀ e, (w.run now s).1 = .error e → e.inDoubt = false → (w.run now s).2 = s) ∧
      (s.Reachable → s.fault = some (.timeout true) →
        (w.run now s).2.spaces = (w.run now { s with fault := none }).2.spaces ∧
          (∀ a, (w.run now { s with fault := none }).1 = .ok a →
            (w.run now s).1 = .error (.timeout true)) ∧
          ∀ e, (w.run now { s with fault := none }).1 = .error e → (w.run now s).1 = .error e) ∧
      (∀ ns, ((w.run now s).2.space? ns).isSome = (s.space? ns).isSome) ∧
      ∀ ns d, ¬(ns = w.address.ns ∧ d = w.address.digest) →
        (w.run now s).2.record? ns d = s.record? ns d := by
  refine ⟨fun e => run_unchanged, fun hup hfault => ?_, w.run_frame now s⟩
  obtain ⟨hspaces, hanswer⟩ := w.run_in_doubt now hup hfault
  refine ⟨hspaces, fun a ha => ?_, fun e he => ?_⟩
  · rw [hanswer, ha]
    rfl
  · rw [hanswer, he]
    rfl

/-- The digest of the one record. -/
def oneDigest : Digest := ⟨List.replicate digestLength 1, rfl⟩

/-- A digest without a record. -/
def otherDigest : Digest := ⟨List.replicate digestLength 2, rfl⟩

/-- A store with one record, of generation 1. -/
def oneRecord (expiresAt : Option Instant) : Store :=
  { settings := {}
    spaces := [("test", [(oneDigest, ⟨none, none, [("n", .int 1)], 1, expiresAt⟩)])] }

theorem oneRecord_wellFormed (expiresAt : Option Instant) : (oneRecord expiresAt).WellFormed where
  sorted := List.pairwise_singleton _ _
  records := by
    refine List.forall_mem_singleton.mpr ⟨List.pairwise_singleton _ _, ?_⟩
    exact List.forall_mem_singleton.mpr (List.pairwise_singleton _ _)

/-- A put to the one record that may expect a generation of it. -/
def putN (generation : Option UInt32) : WriteCall :=
  .put ⟨"test", none, .digest oneDigest⟩ [("n", .int 2)] { generation }

/-- A put that expects another generation, and one whose answer is kept back. -/
theorem run_atomic_oneRecord :
    ((putN (some 7)).run 0 (oneRecord none)).2 = oneRecord none ∧
      ((putN none).run 0 { oneRecord none with fault := some (.timeout true) }).2.spaces =
        ((putN none).run 0 (oneRecord none)).2.spaces ∧
      ((putN none).run 0 { oneRecord none with fault := some (.timeout true) }).1 =
        .error (.timeout true) ∧
      ((putN none).run 0 (oneRecord none)).2.record? "test" otherDigest = none := by
  obtain ⟨hcertain, -, -, -⟩ := run_atomic (putN (some 7)) 0 (oneRecord none)
  obtain ⟨-, hdoubt, -, -⟩ :=
    run_atomic (putN none) 0 { oneRecord none with fault := some (.timeout true) }
  obtain ⟨-, -, -, hframe⟩ := run_atomic (putN none) 0 (oneRecord none)
  obtain ⟨hspaces, hok, -⟩ := hdoubt (.inr ⟨"node-1", by decide, by decide⟩) rfl
  refine ⟨hcertain (.generationMismatch 7 1) rfl rfl, hspaces, hok .written rfl, ?_⟩
  have hother : otherDigest ≠ (putN none).address.digest := by decide
  exact hframe "test" otherDigest fun h => hother h.2

/-! ### Writes one after the other -/

/-- Makes writes one after the other, up to the first that fails, and tells how that failed. -/
def runAll (now : Instant) : List WriteCall → Store → Option StoreError × Store
  | [], s => (none, s)
  | w :: rest, s =>
    match w.run now s with
    | (.error e, s) => (some e, s)
    | (.ok _, s) => runAll now rest s

variable {ws : List WriteCall}

/-- What each of the writes keeps, all of them keep. -/
theorem runAll_keeps {P : Store → Prop} (hrun : ∀ w ∈ ws, ∀ s, P s → P (w.run now s).2)
    (h : P s) : P (runAll now ws s).2 := by
  induction ws generalizing s with
  | nil => exact h
  | cons w rest ih =>
    obtain ⟨hw, hrest⟩ := List.forall_mem_cons.mp hrun
    have hkept := hw s h
    rw [runAll]
    split
    · rename_i e t hfailed
      rwa [hfailed] at hkept
    · rename_i a t hdone
      rw [hdone] at hkept
      exact ih hrest hkept

/-- Writes keep every record that none of them is about. -/
theorem runAll_frame {ns : String} {d : Digest}
    (h : ∀ w ∈ ws, ¬(ns = w.address.ns ∧ d = w.address.digest)) :
    (runAll now ws s).2.record? ns d = s.record? ns d :=
  runAll_keeps (P := fun t => t.record? ns d = s.record? ns d)
    (fun w hw t ht => ((w.run_frame now t).2 ns d (h w hw)).trans ht) rfl

theorem run_access (w : WriteCall) (now : Instant) (s : Store) :
    (w.run now s).2.access = s.access := by
  rcases w.run_cases now s with ⟨e, hrun⟩ | ⟨doubt, rs, a, c, -, -, -, hrun⟩
  · rw [hrun]
  · rw [hrun]
    rfl

theorem runAll_access (now : Instant) (ws : List WriteCall) (s : Store) :
    (runAll now ws s).2.access = s.access :=
  runAll_keeps (P := fun t => t.access = s.access)
    (fun w _ t ht => (w.run_access now t).trans ht) rfl

/-- Where no write is in doubt, one that fails has changed nothing. -/
theorem run_eq_error {e : StoreError} {t : Store} (haccess : s.access = .ok false)
    (h : w.run now s = (.error e, t)) : t = s := by
  rcases w.run_cases now s with ⟨e', hrun⟩ | ⟨doubt, rs, a, c, hdoubt, -, -, hrun⟩
  · rw [hrun] at h
    exact (Prod.mk.inj h).2.symm
  · rw [haccess] at hdoubt
    cases hdoubt
    rw [hrun] at h
    cases (Prod.mk.inj h).1

/-- If an error ended the writes, those before it have succeeded. -/
theorem runAll_eq_some {e : StoreError} (h : (runAll now ws s).1 = some e) :
    ∃ front w rest, ws = front ++ w :: rest ∧ (runAll now front s).1 = none ∧
      w.run now (runAll now front s).2 = (.error e, (runAll now ws s).2) := by
  induction ws generalizing s with
  | nil => cases h
  | cons w rest ih =>
    cases hrun : w.run now s with
    | mk answer t =>
    cases answer with
    | error e' =>
      simp only [runAll, hrun] at h ⊢
      cases h
      exact ⟨[], w, rest, rfl, rfl, hrun⟩
    | ok a =>
      simp only [runAll, hrun] at h ⊢
      obtain ⟨front, w', rest', rfl, hfront, herror⟩ := ih h
      refine ⟨w :: front, w', rest', rfl, ?_, ?_⟩
      · simp only [runAll, hrun, hfront]
      · simp only [runAll, hrun, herror]

end WriteCall
end RecordService
