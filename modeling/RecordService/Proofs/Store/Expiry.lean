import RecordService.Proofs.Store.Purge
import RecordService.Proofs.Store.Run

/-!
# Lazy and eager expiry

A store that leaves expired records where they are cannot be told from one that removes them
before each call.

* `StoreCall`: the calls, the steps of the background jobs, and what can be done to the nodes.
* `StoreCall.serve_purge`: one call to a purged store.
* `eagerly`: calls one after the other, with a purge before each. `lazily`: the same without.
* `eagerly_eq_lazily`: the answers are the same, and so are the records that have not expired.
-/

namespace RecordService

/-- A call of a store, or a step that it takes by itself. -/
inductive StoreCall
  | get (address : Address) (options : ReadOptions)
  | exists_ (address : Address) (filter : Option Expression)
  | write (w : WriteCall)
  | scan (request : ScanRequest)
  | count (ns : String)
  | info (target : Option String) (commands : List String)
  | nodeNames
  | startJob (request : JobRequest)
  | jobStatus (id : Nat)
  /-- Waiting jobs go to free workers. -/
  | dispatch
  /-- The worker of a job looks for its digests, goes through a batch, or reports. -/
  | stepJob (id : Nat)
  | pause (paused : Bool)
  | node (name : String) (up : Bool)
  | fault (fault : Option StoreFault)

/-- What a call is answered with. -/
inductive StoreAnswer
  | record (answer : Except StoreError Record)
  | found (answer : Except StoreError Bool)
  | written (answer : Except StoreError WriteAnswer)
  | page (answer : Except StoreError ScanPage)
  | count (n : Nat)
  | info (answer : Except StoreError InfoAnswer)
  | names (answer : Except StoreError (List String))
  | accepted (answer : Except StoreError Nat)
  | state (answer : Except StoreError JobState)
  /-- The steps of a store, and what is done to its nodes, have no answer. -/
  | silent

namespace StoreCall

/-- Answers a call, and gives the store after it. -/
def serve (now : Instant) (s : Store) : StoreCall → StoreAnswer × Store
  | get address options => (.record (s.get now address options), s)
  | exists_ address filter => (.found (s.exists_ now address filter), s)
  | write w => (w.run now s).map .written id
  | scan request => (.page (s.scan now request), s)
  | count ns => (.count (s.count now ns), s)
  | info target commands => (.info (s.info now target commands), s)
  | nodeNames => (.names s.nodeNames, s)
  | startJob request => (s.startJob now request).map .accepted id
  | jobStatus id => (.state (s.jobStatus id), s)
  | dispatch => (.silent, s.dispatch)
  | stepJob id => (.silent, s.stepJob now id)
  | pause p => (.silent, { s with paused := p })
  | node name up => (.silent, s.setNode name up)
  | fault f => (.silent, { s with fault := f })

variable {now : Instant} {s : Store}

theorem serve_wellFormed (h : s.WellFormed) (now : Instant) (call : StoreCall) :
    (call.serve now s).2.WellFormed := by
  cases call with
  | get | exists_ | scan | count | info | nodeNames | jobStatus => exact h
  | write w => exact w.run_wellFormed h
  | startJob request => exact h.of_spaces (Store.startJob_spaces now request s)
  | stepJob id => exact Store.stepJob_wellFormed h now id
  | dispatch | pause | node | fault => exact h.of_spaces rfl

/-- A call to a purged store is answered as ever, and leaves the purged store. -/
theorem serve_purge (h : s.WellFormed) (now : Instant) (call : StoreCall) :
    call.serve now (s.purge now) = ((call.serve now s).1, (call.serve now s).2.purge now) := by
  cases call with
  | get address options => rw [serve, Store.get_purge h]; rfl
  | exists_ address filter => rw [serve, Store.exists_purge h]; rfl
  | write w => rw [serve, w.run_purge h]; rfl
  | scan request => rw [serve, Store.scan_purge]; rfl
  | count ns => rw [serve, Store.count_purge]; rfl
  | info target commands => rw [serve, Store.info_purge]; rfl
  | startJob request => rw [serve, Store.startJob_purge]; rfl
  | stepJob id => rw [serve, Store.stepJob_purge h]; rfl
  | nodeNames | jobStatus | dispatch | pause | node | fault => rfl

end StoreCall

/-! ## Runs -/

/-- A call that has been answered, and the store after it. -/
structure Served where
  now : Instant
  answer : StoreAnswer
  store : Store

/-- Calls one after the other, each with something done to the store before it. -/
def serveAll (prepare : Instant → Store → Store) : Store → List (Instant × StoreCall) → List Served
  | _, [] => []
  | s, (now, call) :: rest =>
    let served := call.serve now (prepare now s)
    ⟨now, served.1, served.2⟩ :: serveAll prepare served.2 rest

/-- Calls to a store that leaves expired records where they are. -/
def lazily (s : Store) (calls : List (Instant × StoreCall)) : List Served :=
  serveAll (fun _ s => s) s calls

/-- Calls to a store that removes expired records before each. -/
def eagerly (s : Store) (calls : List (Instant × StoreCall)) : List Served :=
  serveAll Store.purge s calls

/-- The invariant of a run: the two stores have the same records that are live from now on. -/
theorem serveAll_purge {s eager : Store} (h : s.WellFormed) {calls : List (Instant × StoreCall)}
    (hclock : (calls.map (·.1)).Pairwise (· ≤ ·))
    (hsame : ∀ x ∈ calls, eager.purge x.1 = s.purge x.1) :
    eagerly eager calls =
      (lazily s calls).map fun x => { x with store := x.store.purge x.now } := by
  induction calls generalizing s eager with
  | nil => rfl
  | cons x rest ih =>
    obtain ⟨now, call⟩ := x
    obtain ⟨hlater, hclock⟩ := List.pairwise_cons.mp hclock
    have hnow : eager.purge now = s.purge now := hsame (now, call) List.mem_cons_self
    have hserve := call.serve_purge h now
    have hrest : ∀ x ∈ rest,
        ((call.serve now s).2.purge now).purge x.1 = (call.serve now s).2.purge x.1 :=
      fun x hx => Store.purge_purge (hlater x.1 (List.mem_map_of_mem hx)) _
    have htail := ih (call.serve_wellFormed h now) hclock hrest
    simp only [eagerly, lazily, serveAll, List.map_cons] at htail ⊢
    rw [hnow, hserve, htail]

/-- With a clock that never goes back, a store that leaves expired records where they are gives
the same answers as one that removes them before each call, and after each call the records of the
latter are those of the former that have not expired. -/
theorem eagerly_eq_lazily {s : Store} (h : s.WellFormed) {calls : List (Instant × StoreCall)}
    (hclock : (calls.map (·.1)).Pairwise (· ≤ ·)) :
    (eagerly s calls).map (·.answer) = (lazily s calls).map (·.answer) ∧
      (eagerly s calls).map (·.store) = (lazily s calls).map fun x => x.store.purge x.now := by
  rw [serveAll_purge h hclock fun _ _ => rfl]
  simp

/-- A record that expires at 10 is read before that. After it, it is counted, and operated on. -/
def aroundExpiry : List (Instant × StoreCall) :=
  [(0, .get ⟨"test", none, .digest WriteCall.oneDigest⟩ {}), (20, .count "test"),
    (20, .write (.operate ⟨"test", none, .digest WriteCall.oneDigest⟩ [.add "n" (.int 5)] {}))]

/-- The record stays where it is until the operation, which starts from no bins. -/
theorem eagerly_eq_lazily_aroundExpiry :
    (eagerly (WriteCall.oneRecord (some 10)) aroundExpiry).map (·.answer) =
        (lazily (WriteCall.oneRecord (some 10)) aroundExpiry).map (·.answer) ∧
      (eagerly (WriteCall.oneRecord (some 10)) aroundExpiry).map (·.store) =
        ((lazily (WriteCall.oneRecord (some 10)) aroundExpiry).map fun x => x.store.purge x.now) ∧
      (lazily (WriteCall.oneRecord (some 10)) aroundExpiry).map (·.store.spaces) =
        [(WriteCall.oneRecord (some 10)).spaces, (WriteCall.oneRecord (some 10)).spaces,
          [("test", [(WriteCall.oneDigest, ⟨none, none, [("n", .int 5)], 1, none⟩)])]] := by
  have hclock : (aroundExpiry.map (·.1)).Pairwise (· ≤ ·) := by decide
  obtain ⟨hanswers, hstores⟩ := eagerly_eq_lazily (WriteCall.oneRecord_wellFormed (some 10)) hclock
  exact ⟨hanswers, hstores, rfl⟩

end RecordService
