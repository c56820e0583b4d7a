import RecordService.Proofs.Store.WellFormed

/-!
# What happens to a store in the course of time

* `StoreEvent`: a write of a client, a step of the background jobs, a change of the nodes, of the
  fault or of the clock.
* `Moment.run`: a store and a clock after a sequence of events, in any order.
* `Moment.run_wellFormed`: the store stays well-formed.
* `Moment.Reaches.wellFormed_of_empty`: so every store that began empty is.
-/

namespace RecordService

/-- Something that changes a store or its clock. -/
inductive StoreEvent
  | put (address : Address) (bins : Bins) (options : WriteOptions)
  | delete (address : Address) (options : WriteOptions)
  | operate (address : Address) (ops : List Operation) (options : WriteOptions)
  | startJob (request : JobRequest)
  /-- Waiting jobs go to free workers. -/
  | dispatch
  /-- The worker of a job takes its next step: it looks for the digests, or goes through a batch,
  or reports. -/
  | stepJob (id : Nat)
  | pause (paused : Bool)
  | node (name : String) (up : Bool)
  | fault (fault : Option StoreFault)
  | clock (now : Instant)

/-- A store at a point in time. -/
structure Moment where
  store : Store
  now : Instant

namespace Moment

/-- The moment after an event. -/
def after (m : Moment) : StoreEvent → Moment
  | .put address bins options => { m with store := (m.store.put m.now address bins options).2 }
  | .delete address options => { m with store := (m.store.delete m.now address options).2 }
  | .operate address ops options =>
    { m with store := (m.store.operate m.now address ops options).2 }
  | .startJob request => { m with store := (m.store.startJob m.now request).2 }
  | .dispatch => { m with store := m.store.dispatch }
  | .stepJob id => { m with store := m.store.stepJob m.now id }
  | .pause paused => { m with store := { m.store with paused } }
  | .node name up => { m with store := m.store.setNode name up }
  | .fault fault => { m with store := { m.store with fault } }
  | .clock now => { m with now }

/-- The moment after a sequence of events. -/
def run (m : Moment) (events : List StoreEvent) : Moment := events.foldl after m

/-- Some sequence of events leads from one moment to the other. -/
def Reaches (m m' : Moment) : Prop := ∃ events, m.run events = m'

variable {m m' : Moment}

theorem run_append (m : Moment) (events later : List StoreEvent) :
    m.run (events ++ later) = (m.run events).run later := List.foldl_append

theorem run_concat (m : Moment) (events : List StoreEvent) (e : StoreEvent) :
    m.run (events ++ [e]) = (m.run events).after e := m.run_append events [e]

theorem after_wellFormed (h : m.store.WellFormed) (e : StoreEvent) :
    (m.after e).store.WellFormed := by
  cases e with
  | put address bins options => exact Store.put_wellFormed h m.now address bins options
  | delete address options => exact Store.delete_wellFormed h m.now address options
  | operate address ops options => exact Store.operate_wellFormed h m.now address ops options
  | startJob request => exact h.of_spaces (Store.startJob_spaces m.now request m.store)
  | stepJob id => exact Store.stepJob_wellFormed h m.now id
  | dispatch => exact h.of_spaces rfl
  | pause => exact h.of_spaces rfl
  | node => exact h.of_spaces rfl
  | fault => exact h.of_spaces rfl
  | clock => exact h

theorem run_wellFormed (h : m.store.WellFormed) (events : List StoreEvent) :
    (m.run events).store.WellFormed := by
  induction events generalizing m with
  | nil => exact h
  | cons e rest ih => exact ih (after_wellFormed h e)

theorem Reaches.wellFormed (h : m.Reaches m') (hm : m.store.WellFormed) :
    m'.store.WellFormed := by
  obtain ⟨events, rfl⟩ := h
  exact run_wellFormed hm events

/-- A store that was empty once is well-formed ever after. -/
theorem Reaches.wellFormed_of_empty {settings : StoreSettings} {now : Instant}
    (h : Reaches ⟨.empty settings, now⟩ m) : m.store.WellFormed :=
  h.wellFormed (Store.empty_wellFormed settings)

/-- The moments are passed through, one after the other. -/
def LeadsThrough (m : Moment) : List Moment → Prop
  | [] => True
  | m' :: rest => m.Reaches m' ∧ m'.LeadsThrough rest

theorem LeadsThrough.wellFormed {ms : List Moment} (h : m.LeadsThrough ms)
    (hm : m.store.WellFormed) : ∀ m' ∈ ms, m'.store.WellFormed := by
  induction ms generalizing m with
  | nil => exact fun _ h => nomatch h
  | cons m' rest ih =>
    have hm' := h.1.wellFormed hm
    exact List.forall_mem_cons.mpr ⟨hm', ih h.2 hm'⟩

end Moment
end RecordService
