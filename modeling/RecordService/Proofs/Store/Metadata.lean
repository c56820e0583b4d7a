import RecordService.Proofs.Job.Operates
import RecordService.Proofs.Store.Filed

/-!
# What generation and expiry tell

The generation and the expiry of a record are decided by its past alone: by the modifications since
the last one that found no live record in its place.

* `Effect.modifies`: which changes are modifications. `Effect.ttl?`: the time to live that one asks
  for.
* `Effect.Valid.metadata`: what one change makes of the generation and the expiry.
* `Effect.expiryAfter`: what the times to live of a past come to.
* `StoredRecord.Follows`: a record is what its past makes of it. `Store.Replays.follows`: a log of
  changes keeps it so.
* `Moment.metadata_of_past`: so it is after any run.
-/

namespace RecordService

namespace Effect

variable {s : Store} {x : Effect} {xs past : List Effect} {r : StoredRecord} {ns : String}
  {d : Digest}

/-- Whether a change is a modification: a put, an operate that does more than report, or what a job
does to a record. A delete ends a record and modifies none. -/
def modifies (x : Effect) : Bool :=
  match x.origin with
  | .client (.put ..) => true
  | .client (.delete ..) => false
  | .client (.operate _ ops _) => ops.any (!·.isRead)
  | .job _ => true

/-- A modification at a digest of a namespace. -/
def modifiesAt (ns : String) (d : Digest) (x : Effect) : Bool := x.isAt ns d && x.modifies

/-- The seconds to live that a change asks for. A job asks for none. -/
def ttl? (x : Effect) : Option UInt32 :=
  match x.origin with
  | .client w => w.options.ttl
  | .job _ => none

/-- The last time to live that changes ask for, and the instant at which they do. -/
def lastTtl? (xs : List Effect) : Option (Instant × UInt32) :=
  (xs.filterMap fun x => x.ttl?.map fun ttl => (x.now, ttl)).getLast?

/-- The expiry that changes of a record come to: none if none of them asks for a time to live or
the last that does asks for zero, and else so many seconds after it. -/
def expiryAfter (xs : List Effect) : Option Instant :=
  match lastTtl? xs with
  | none => none
  | some (now, ttl) => if ttl = 0 then none else some (now + 1000 * (ttl.toNat : Int))

/-! ## One change -/

theorem expiryAfter_concat (xs : List Effect) (x : Effect) :
    expiryAfter (xs ++ [x]) = Cell.expiry x.ttl? (expiryAfter xs) x.now := by
  unfold expiryAfter lastTtl?
  rw [List.filterMap_append]
  cases httl : x.ttl? with
  | none => simp [httl, Cell.expiry]
  | some ttl => simp [httl, Cell.expiry]

/-- What is stored counts the generation up by one, from nothing where no record was found, and
keeps the expiry that was found unless the change asks for a time to live. -/
theorem Valid.metadata (h : x.Valid s) (hr : x.change = .store r) :
    x.modifies ∧ r.generation = (x.found.map (·.generation)).getD 0 + 1 ∧
      r.expiresAt = Cell.expiry x.ttl? (x.found.bind (·.expiresAt)) x.now := by
  unfold modifies ttl?
  rcases h.stores hr with ⟨address, given, options, horigin, -, -, rfl⟩ |
    ⟨address, ops, options, done, horigin, -, hdone, hmodified, -, rfl⟩ |
    ⟨job, r', done, horigin, hfound, -, -, rfl⟩
  · rw [horigin]
    exact ⟨rfl, rfl, rfl⟩
  · rw [horigin]
    refine ⟨?_, ?_⟩
    · have hops := Operation.applyFrom_modified hdone
      rw [hmodified, Bool.false_or] at hops
      exact hops.symm
    · cases x.found with
      | none => exact ⟨rfl, rfl⟩
      | some r' => exact ⟨rfl, rfl⟩
  · rw [horigin, hfound]
    exact ⟨rfl, rfl, rfl⟩

/-- What keeps a record as it is does not modify it. -/
theorem Valid.modifies_of_keep (h : x.Valid s) (hkeep : x.change = .keep) :
    x.modifies = false := by
  unfold modifies
  rcases h.cases with
    ⟨_, _, _, -, -, -, ⟨-, hc⟩ | ⟨-, hc⟩⟩ | ⟨address, options, horigin, -, -⟩ |
    ⟨address, ops, options, done, horigin, -, -, hdone,
      ⟨hmodified, -⟩ | ⟨-, -, hc⟩ | ⟨-, -, hc⟩⟩ |
    ⟨_, _, _, -, -, -, -, ⟨-, hc⟩ | ⟨-, hc⟩⟩
  · cases hc.symm.trans hkeep
  · cases hc.symm.trans hkeep
  · rw [horigin]
  · have hops := Operation.applyFrom_modified hdone
    rw [hmodified, Bool.false_or] at hops
    rw [horigin]
    exact hops.symm
  · cases hc.symm.trans hkeep
  · cases hc.symm.trans hkeep
  · cases hc.symm.trans hkeep
  · cases hc.symm.trans hkeep

end Effect

/-! ## The past of a record -/

/-- Of the modifications in the place of a record, the last ones are its own: the first of them has
found no live record, and all others have found one. As many as they are, so often has the
generation been counted up, and the expiry is what their times to live come to. -/
def StoredRecord.Follows (r : StoredRecord) (past : List Effect) : Prop :=
  ∃ before birth later, past = before ++ birth :: later ∧ birth.found = none ∧
    (∀ x ∈ later, x.found.isSome) ∧
    r.generation.toNat = (birth :: later).length % 2 ^ 32 ∧
    r.expiresAt = Effect.expiryAfter (birth :: later)

namespace StoredRecord.Follows

variable {r r' : StoredRecord} {past : List Effect} {x : Effect}

/-- A record comes into being. -/
theorem birth (past : List Effect) (hx : x.found = none) (hgeneration : r.generation = 0 + 1)
    (hexpiry : r.expiresAt = Cell.expiry x.ttl? none x.now) : r.Follows (past ++ [x]) := by
  refine ⟨past, x, [], rfl, hx, List.forall_mem_nil _, ?_, ?_⟩
  · rw [hgeneration]
    rfl
  · rw [hexpiry]
    exact (Effect.expiryAfter_concat [] x).symm

/-- A record is modified. -/
theorem next (h : r.Follows past) (hx : x.found.isSome)
    (hgeneration : r'.generation = r.generation + 1)
    (hexpiry : r'.expiresAt = Cell.expiry x.ttl? r.expiresAt x.now) : r'.Follows (past ++ [x]) := by
  obtain ⟨before, first, later, rfl, hfirst, hlater, hcount, hr⟩ := h
  refine ⟨before, first, later ++ [x], by simp, hfirst, ?_, ?_, ?_⟩
  · exact List.forall_mem_append.mpr ⟨hlater, List.forall_mem_singleton.mpr hx⟩
  · have hone : (1 : UInt32).toNat = 1 := rfl
    rw [hgeneration, UInt32.toNat_add, hcount, hone, ← List.cons_append, List.length_append,
      List.length_singleton]
    omega
  · rw [hexpiry, hr, ← List.cons_append, Effect.expiryAfter_concat]

end StoredRecord.Follows

/-- A change keeps the record at a digest to its past. -/
theorem Effect.Valid.follows {s : Store} {x : Effect} {past : List Effect} {ns : String}
    {d : Digest} (h : x.Valid s) (hwf : s.WellFormed)
    (hs : ∀ r, s.record? ns d = some r → r.Follows (past.filter (·.modifiesAt ns d))) :
    ∀ r, (x.replay s).record? ns d = some r →
      r.Follows ((past ++ [x]).filter (·.modifiesAt ns d)) := by
  intro r hr
  rw [List.filter_append]
  rcases h.record?_cases hwf hr with ⟨hbefore, helse⟩ | ⟨hat, hchange, hfound⟩
  · have hnone : [x].filter (·.modifiesAt ns d) = [] := by
      refine List.filter_cons_of_neg ?_
      rcases helse with hat | hkeep
      · simp [modifiesAt, hat]
      · simp [modifiesAt, h.modifies_of_keep hkeep]
    rw [hnone, List.append_nil]
    exact hs r hbefore
  · obtain ⟨hmodifies, hgeneration, hexpiry⟩ := h.metadata hchange
    have hone : [x].filter (·.modifiesAt ns d) = [x] :=
      List.filter_cons_of_pos (by simp [modifiesAt, hat, hmodifies])
    rw [hone]
    cases hx : x.found with
    | none =>
      rw [hx] at hgeneration hexpiry
      exact .birth _ hx hgeneration hexpiry
    | some r₀ =>
      rw [hx] at hgeneration hexpiry
      exact (hs r₀ (hfound r₀ hx)).next (hx ▸ rfl) hgeneration hexpiry

/-- So does a log of changes. -/
theorem Store.Replays.follows {s : Store} {xs past : List Effect} {ns : String} {d : Digest}
    (h : s.Replays xs) (hwf : s.WellFormed)
    (hs : ∀ r, s.record? ns d = some r → r.Follows (past.filter (·.modifiesAt ns d))) :
    ∀ r, (xs.foldl Effect.replay s).record? ns d = some r →
      r.Follows ((past ++ xs).filter (·.modifiesAt ns d)) :=
  h.tells past (P := fun past r => r.Follows (past.filter (·.modifiesAt ns d))) hwf
    (fun _ _ _ hx hwf hs => hx.follows hwf hs) hs

namespace Moment

/-- All that happens to the records of a store that began empty is a sequence of changes, each
decided on what those before it have left. A write that is refused is no change, and one that is
not, in doubt or not, is one change at its instant; a job makes one for each live record that passes
its filter when its turn comes. The generation of any record that is stored, expired or not, is the
count of the modifications in its place since the last one that found no live record there, itself
included, modulo 2 ^ 32; and its expiry is decided by the last of these that asked for a time to
live. -/
theorem metadata_of_past (settings : StoreSettings) (start : Instant) (events : List StoreEvent) :
    let first : Moment := ⟨.empty settings, start⟩
    let log := first.log events
    (first.store.Replays log ∧
        (log.foldl Effect.replay first.store).spaces = (first.run events).store.spaces) ∧
      (∀ before e later w, events = before ++ e :: later → e.write? = some w →
        let m := first.run before
        (∃ x, m.effects e = [x] ∧ x.origin = .client w ∧ x.now = m.now) ∨
          (m.effects e = [] ∧ ∃ why, w.run m.now m.store = (.error why, m.store))) ∧
      ∀ ns d r, (first.run events).store.record? ns d = some r →
        r.Follows (log.filter (·.modifiesAt ns d)) := by
  intro first log
  have hwf : first.store.WellFormed := Store.empty_wellFormed settings
  obtain ⟨hreplays, hspaces⟩ := run_replays hwf events
  refine ⟨⟨hreplays, hspaces⟩, ?_, ?_⟩
  · intro before e later w _ hw m
    rw [(after_write (m := m) hw).2]
    rcases w.effects_cases m.now m.store with ⟨why, hrun, hnone⟩ | ⟨_, _, _, _, -, -, hone, -⟩
    · exact .inr ⟨hnone, why, hrun⟩
    · exact .inl ⟨_, hone, rfl, rfl⟩
  · intro ns d r hr
    have hnone : ∀ r, first.store.record? ns d = some r →
        r.Follows (([] : List Effect).filter (·.modifiesAt ns d)) := by
      intro r hr
      obtain ⟨rs, hrs, hfind⟩ := Option.bind_eq_some_iff.mp hr
      exact (Store.empty_each settings (fun _ _ => False) ns rs hrs _
        (Ordered.mem_of_find? hfind)).elim
    refine hreplays.follows hwf hnone r ?_
    rw [Store.record?, Store.space?, hspaces]
    exact hr

/-! ### A record that has come into being twice -/

/-- Where the record is. -/
def rebornAddress : Address := ⟨"test", none, .digest WriteCall.oneDigest⟩

/-- A record expires, comes into being again, and is changed by a job and by a write in doubt. What
only reports and what is refused asks for other times to live. -/
def reborn : List StoreEvent :=
  [.put rebornAddress [("n", .int 1)] { ttl := some 10 },
    .clock 20000,
    .operate rebornAddress [.add "n" (.int 1)] { ttl := some 5 },
    .startJob ⟨⟨"test", none, none⟩, [.touch]⟩, .dispatch, .stepJob 1, .stepJob 1,
    .operate rebornAddress [.get] { ttl := some 100 },
    .put rebornAddress [("n", .int 2)] { mode := .createOnly, ttl := some 100 },
    .fault (some (.timeout true)),
    .put rebornAddress [("m", .int 2)] {}]

/-- Three modifications count, and the first of them has set the expiry. -/
theorem metadata_of_past_reborn :
    ∃ r, (run ⟨.empty {}, 0⟩ reborn).store.record? "test" WriteCall.oneDigest = some r ∧
      r.generation = 3 ∧ r.expiresAt = some 25000 ∧
      r.Follows ((log ⟨.empty {}, 0⟩ reborn).filter
        (·.modifiesAt "test" WriteCall.oneDigest)) := by
  obtain ⟨-, -, hfollows⟩ := metadata_of_past {} 0 reborn
  exact ⟨_, rfl, rfl, rfl, hfollows "test" WriteCall.oneDigest _ rfl⟩

end Moment
end RecordService
