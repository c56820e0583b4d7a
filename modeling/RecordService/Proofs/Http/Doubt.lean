import RecordService.Proofs.Http.Failures
import RecordService.Proofs.Store.Doubt

/-!
# Doubt as it is told

The body that tells of an error says whether a write is in doubt. It says so only where the store
does, and that is where the answer of a write is kept back.

* `failure_inDoubt_iff`: the body of an error ends with its doubt.
* `Definite`, `DoubtByWrite`: a call of the gateway that is never in doubt, and one that is so only
  by a write of the store, which is then all that it has done.
* `handle_inDoubt`: a response in doubt answers a request that writes, and the store has made the
  write.
* `doubt_by_writes_only`: so much for the calls of a store and for the requests before it.
* `reads_in_doubt`: operations that only report are writes to the store, and can be in doubt.
-/

namespace RecordService

variable {α β : Type}

/-! ## Errors of the gateway -/

namespace GatewayError

theorem ofStore_inDoubt (e : StoreError) : (ofStore e).inDoubt = e.inDoubt := by
  cases e <;> rfl

theorem ofKey_inDoubt (e : KeyError) : (ofKey e).inDoubt = false := rfl

theorem ofFilter_inDoubt (e : FilterError) : (ofFilter e).inDoubt = false := by
  cases e
  rfl

theorem ofPayload_inDoubt (e : PayloadError) : (ofPayload e).inDoubt = false := by
  cases e <;> rfl

/-- A scan that times out is incomplete, and that is all that is told of it. -/
theorem ofScan_ofStore_inDoubt (e : StoreError) :
    (ofScan (ScanError.ofStore e)).inDoubt = false := by
  cases e <;> rfl

theorem four_hundred_le_status (e : GatewayError) : 400 ≤ e.status := by
  cases e with
  | storeTimeout doubt => exact (by decide : 400 ≤ 504)
  | scanIncomplete reason timedOut => cases timedOut <;> simp [status, kind, isTimeout]
  | _ => simp [status, kind, isTimeout]

end GatewayError

/-- A computation of the gateway that fails, if it does, without leaving a write in doubt. -/
def Definite (x : Except GatewayError α) : Prop := FailsOnly (·.inDoubt = false) x

theorem definite_mapError {ε : Type} {f : ε → GatewayError} (x : Except ε α)
    (hf : ∀ e, (f e).inDoubt = false) : Definite (x.mapError f) :=
  FailsOnly.mapError (P := fun _ => True) (fun _ _ => trivial) fun e _ => hf e

/-- What is certain for the store is so for the gateway. -/
theorem Certain.definite {x : Except StoreError α} (h : Certain x) :
    Definite (x.mapError GatewayError.ofStore) :=
  FailsOnly.mapError h fun e he => (GatewayError.ofStore_inDoubt e).trans he

/-! ## Background tasks -/

namespace TaskRegistry

/-- A task error that leaves no write in doubt. -/
def IsDefinite (e : TaskError) : Prop := (GatewayError.ofTask e).inDoubt = false

theorem checkOperations_definite (ops : List Operation) :
    FailsOnly IsDefinite (checkOperations ops) := by
  refine .ite (fun _ => failsOnly_error rfl) fun _ => ?_
  cases ops.findSome? shownReport? with
  | some shown => exact failsOnly_error rfl
  | none => exact failsOnly_ok _

theorem reserve_definite (r : TaskRegistry) : FailsOnly IsDefinite r.reserve :=
  .ite (fun _ => failsOnly_ok _) fun _ => failsOnly_error rfl

theorem hand_definite (now : Instant) (fresh : TaskId) (selection : Selection)
    (ops : List Operation) (r : TaskRegistry) (s : Store) :
    FailsOnly IsDefinite (hand now fresh selection ops r s).1 := by
  have hcertain := s.startJob_certain now ⟨selection, ops⟩
  unfold hand
  split
  · rename_i e t hstart
    rw [hstart] at hcertain
    exact failsOnly_error ((GatewayError.ofStore_inDoubt e).trans (hcertain e rfl))
  · exact failsOnly_ok _

/-- A background task writes, but not before it has been answered. -/
theorem submit_definite (now : Instant) (fresh : TaskId) (selection : Selection)
    (ops : List Operation) (r : TaskRegistry) (s : Store) :
    FailsOnly IsDefinite (r.submit now fresh selection ops s).1 := by
  unfold submit
  cases hops : checkOperations ops with
  | error e => exact failsOnly_error (checkOperations_definite ops e hops)
  | ok =>
    simp only []
    cases hreserve : (r.sweep now).2.reserve with
    | error e => exact failsOnly_error (reserve_definite _ e hreserve)
    | ok r => exact hand_definite now fresh selection ops r s

theorem status_definite (now : Instant) (text : String) (r : TaskRegistry) :
    FailsOnly IsDefinite (r.status now text).1 := by
  unfold status
  split
  · exact failsOnly_error rfl
  · split
    · exact failsOnly_error rfl
    · exact failsOnly_ok _

end TaskRegistry

namespace Gateway

variable {g : Gateway} {now : Instant}

/-! ## Calls that write no record -/

theorem getRecord_definite (g : Gateway) (now : Instant) (address : Address)
    (filter : Option Expression) (bins : Option (List String)) :
    Definite (g.getRecord now address filter bins) :=
  (g.store.get_certain now address _).definite

theorem scan_definite (g : Gateway) (now : Instant) (selection : Selection)
    (bins : Option (List String)) (size : Option Nat) (token : Option String) :
    Definite (g.scan now selection bins size token) := by
  refine FailsOnly.mapError (P := fun e => (GatewayError.ofScan e).inDoubt = false) ?_ fun _ h => h
  refine .bind ?_ fun _ => .mapError (P := fun _ => True) (fun _ _ => trivial) fun e _ =>
    GatewayError.ofScan_ofStore_inDoubt e
  exact .ite (fun _ => failsOnly_ok _) fun _ => failsOnly_error rfl

theorem info_definite (g : Gateway) (now : Instant) (node : Option String)
    (commands : List String) : Definite (g.info now node commands) :=
  (g.store.info_certain now node commands).definite

theorem nodeNames_definite (g : Gateway) : Definite g.nodeNames :=
  g.store.nodeNames_certain.definite

theorem submit_definite (g : Gateway) (now : Instant) (fresh : TaskId) (selection : Selection)
    (ops : List Operation) : Definite (g.submit now fresh selection ops).1 :=
  FailsOnly.mapError (TaskRegistry.submit_definite now fresh selection ops g.tasks g.store)
    fun _ h => h

theorem taskStatus_definite (g : Gateway) (now : Instant) (text : String) :
    Definite (g.taskStatus now text).1 :=
  FailsOnly.mapError (TaskRegistry.status_definite now text g.tasks) fun _ h => h

/-! ## Writes -/

/-- A call of the gateway is in doubt only by a write of the store, which is then all that it has
done to the store. -/
def DoubtByWrite (g : Gateway) (now : Instant) (outcome : Except GatewayError α × Gateway) : Prop :=
  ∀ e, outcome.1 = .error e → e.inDoubt = true →
    ∃ w : WriteCall, LeavesDoubt (w.run now g.store).1 ∧
      outcome.2.store = (w.run now g.store).2

theorem doubtByWrite_of_definite {outcome : Except GatewayError α × Gateway}
    (h : Definite outcome.1) : g.DoubtByWrite now outcome := by
  intro e he hdoubt
  rw [h e he] at hdoubt
  cases hdoubt

/-- What is made of the answer of a write adds no doubt to it. -/
theorem DoubtByWrite.bind {outcome : Except GatewayError α × Gateway}
    {f : α → Except GatewayError β} (h : g.DoubtByWrite now outcome) (hf : ∀ a, Definite (f a)) :
    g.DoubtByWrite now (outcome.1.bind f, outcome.2) := by
  obtain ⟨answer, g'⟩ := outcome
  intro e he hdoubt
  cases answer with
  | error why => exact h e (congrArg Except.error (Except.error.inj he)) hdoubt
  | ok a =>
    rw [hf a e he] at hdoubt
    cases hdoubt

theorem doubtByWrite_ofStoreCall {w : WriteCall} {f : α → WriteAnswer}
    {call : Except StoreError α × Store}
    (hw : w.run now g.store = (call.1.map f, call.2)) :
    g.DoubtByWrite now (g.ofStoreCall call) := by
  intro e he hdoubt
  refine ⟨w, ?_, by rw [hw]; rfl⟩
  rw [hw, leavesDoubt_map]
  obtain ⟨answer, s⟩ := call
  cases answer with
  | ok a => cases he
  | error why =>
    obtain rfl := Except.error.inj he
    exact ⟨why, rfl, (GatewayError.ofStore_inDoubt why).symm.trans hdoubt⟩

theorem doubtByWrite_putRecord (g : Gateway) (now : Instant) (address : Address) (bins : Bins)
    (options : WriteOptions) : g.DoubtByWrite now (g.putRecord now address bins options) := by
  unfold putRecord
  split
  · exact doubtByWrite_of_definite (failsOnly_error rfl)
  · exact doubtByWrite_ofStoreCall (w := .put address bins options) rfl

theorem doubtByWrite_operate (g : Gateway) (now : Instant) (address : Address)
    (ops : List Operation) (p : WriteParameters) :
    g.DoubtByWrite now (g.operate now address ops p) := by
  unfold operate
  split
  · exact doubtByWrite_of_definite (failsOnly_error rfl)
  · exact doubtByWrite_ofStoreCall (w := .operate address ops (p.options .update)) rfl

theorem doubtByWrite_deleteRecord (g : Gateway) (now : Instant) (address : Address)
    (generation : Option UInt32) :
    g.DoubtByWrite now (g.deleteRecord now address generation) := by
  have hdelete : g.DoubtByWrite now
      (g.ofStoreCall (g.store.delete now address ⟨.update, generation, none⟩)) :=
    doubtByWrite_ofStoreCall (w := .delete address ⟨.update, generation, none⟩) rfl
  refine hdelete.bind fun found => ?_
  cases found with
  | true => exact failsOnly_ok _
  | false => exact failsOnly_error rfl

end Gateway

namespace Http

variable {codec codec' : Codec} {g : Gateway} {now : Instant} {fresh : TaskId} {r : Request}

/-! ## Responses -/

/-- A response tells of an error that leaves a write in doubt. -/
def Response.InDoubt (r : Response) : Prop :=
  ∃ codec e, r = failure codec e ∧ e.inDoubt = true

/-- What the body of an error ends with. -/
def doubtMark (codec : Codec) (doubt : Bool) : Bytes :=
  match codec with
  | .json => [if doubt then 0x75 else 0x73, 0x65, 0x7D]
  | .messagePack => [if doubt then 0xC3 else 0xC2]

theorem json_print_error (b : ErrorBody) :
    ∃ front, Json.print b.toDocument = front ++ doubtMark .json b.inDoubt := by
  obtain ⟨kind, message, doubt⟩ := b
  have htrue : Bytes.utf8 "true" = [0x74, 0x72, 0x75, 0x65] := by decide
  have hfalse : Bytes.utf8 "false" = [0x66, 0x61, 0x6C, 0x73, 0x65] := by decide
  refine ⟨0x7B :: (Json.quoted "errorKind" ++ 0x3A :: Json.quoted kind ++ 0x2C ::
    (Json.quoted "message" ++ 0x3A :: Json.quoted message ++ 0x2C ::
      (Json.quoted "inDoubt" ++ 0x3A :: if doubt then [0x74, 0x72] else [0x66, 0x61, 0x6C]))), ?_⟩
  cases doubt <;>
    simp [ErrorBody.toDocument, Document.object, Json.print, Json.printEntries, Json.separated,
      doubtMark, htrue, hfalse]

theorem messagePack_print_error (b : ErrorBody) :
    ∃ front, MessagePack.print b.toDocument = front ++ doubtMark .messagePack b.inDoubt := by
  obtain ⟨kind, message, doubt⟩ := b
  refine ⟨MessagePack.mapHeader 3 ++ MessagePack.print (.text "errorKind") ++
    MessagePack.print (.text kind) ++ MessagePack.print (.text "message") ++
    MessagePack.print (.text message) ++ MessagePack.print (.text "inDoubt"), ?_⟩
  cases doubt <;>
    simp [ErrorBody.toDocument, Document.object, MessagePack.print, MessagePack.printEntries,
      doubtMark]

theorem failure_body (codec : Codec) (e : GatewayError) :
    ∃ front, (failure codec e).body = front ++ doubtMark codec e.inDoubt := by
  cases codec with
  | json => exact json_print_error e.body
  | messagePack => exact messagePack_print_error e.body

theorem eq_of_mediaType (h : codec.mediaType = codec'.mediaType) : codec = codec' := by
  cases codec <;> cases codec' <;> first | rfl | exact absurd h (by decide)

/-- The response to a failed request is in doubt if and only if the error is: no two errors with
different doubts are told the same. -/
theorem failure_inDoubt_iff {e : GatewayError} :
    (failure codec e).InDoubt ↔ e.inDoubt = true := by
  refine ⟨?_, fun h => ⟨codec, e, rfl, h⟩⟩
  rintro ⟨codec', e', hsame, hdoubt⟩
  obtain rfl : codec = codec' :=
    eq_of_mediaType (Option.some.inj (congrArg Response.contentType hsame))
  obtain ⟨front, hbody⟩ := failure_body codec e
  obtain ⟨front', hbody'⟩ := failure_body codec e'
  have hbodies : front ++ doubtMark codec e.inDoubt = front' ++ doubtMark codec e'.inDoubt := by
    rw [← hbody, ← hbody', hsame]
  have hmarks : doubtMark codec e.inDoubt = doubtMark codec e'.inDoubt :=
    List.append_inj_right' hbodies (by cases codec <;> rfl)
  rw [← hdoubt]
  generalize e.inDoubt = doubt at hmarks
  generalize e'.inDoubt = doubt' at hmarks
  cases codec <;> cases doubt <;> cases doubt' <;>
    first | rfl | exact absurd hmarks (by decide)

theorem not_inDoubt_of_status {a : Response} (h : a.status < 400) : ¬a.InDoubt := by
  rintro ⟨codec, e, rfl, -⟩
  exact Nat.not_le.mpr h e.four_hundred_le_status

theorem not_inDoubt_of_contentType {a : Response}
    (h : ∀ codec : Codec, a.contentType ≠ some codec.mediaType) : ¬a.InDoubt := by
  rintro ⟨codec, e, rfl, -⟩
  exact h codec rfl

theorem not_inDoubt_bare (status : Nat) : ¬(Response.bare status).InDoubt :=
  not_inDoubt_of_contentType nofun

theorem not_inDoubt_plain (status : Nat) (text : String) :
    ¬(Response.plain status text).InDoubt := by
  have hplain (codec : Codec) : "text/plain; charset=utf-8" ≠ codec.mediaType := by
    cases codec <;> decide
  exact not_inDoubt_of_contentType fun codec h => hplain codec (Option.some.inj h)

/-- A response without a body tells of no doubt. -/
theorem not_inDoubt_withoutBody (a : Response) : ¬a.withoutBody.InDoubt := by
  rintro ⟨codec, e, hsame, -⟩
  obtain ⟨front, hbody⟩ := failure_body codec e
  have hempty : [] = front ++ doubtMark codec e.inDoubt :=
    (congrArg Response.body hsame).trans hbody
  have hmark : doubtMark codec e.inDoubt ≠ [] := by cases codec <;> exact nofun
  exact hmark (List.append_eq_nil_iff.mp hempty.symm).2

theorem not_inDoubt_failure {e : GatewayError} (h : e.inDoubt = false) :
    ¬(failure codec e).InDoubt := by
  rw [failure_inDoubt_iff, h]
  exact nofun

/-! ## What is read of a request -/

theorem pathSegments_definite (path : String) : Definite (pathSegments path) := by
  refine failsOnly_mapM (fun raw => ?_) _
  cases segmentText? raw with
  | some s => exact failsOnly_ok _
  | none => exact failsOnly_error rfl

theorem number_definite (name : String) (bound : Nat) (raw : Option String) :
    Definite (number name bound raw) := by
  unfold number
  split
  · exact failsOnly_ok _
  · split
    · exact failsOnly_ok _
    · exact failsOnly_error rfl

theorem word_definite (name : String) (raw : Option String) : Definite (word name raw) :=
  (number_definite name _ raw).map

theorem address_definite (q : RecordQuery) (path : String) : Definite (q.address path) :=
  FailsOnly.bind (pathSegments_definite path) fun _ =>
    definite_mapError _ GatewayError.ofKey_inDoubt

theorem write_definite (q : RecordQuery) : Definite q.write :=
  FailsOnly.bind (word_definite _ _) fun _ => (word_definite _ _).map

theorem filterOf_definite (token : Option String) : Definite (filterOf token) :=
  definite_mapError _ GatewayError.ofFilter_inDoubt

theorem selectionOf_definite (ns : String) (set token : Option String) :
    Definite (selectionOf ns set token) := (filterOf_definite token).map

theorem decode_definite {α : Type} (codec : Codec) (shape : Nat → Document → Except Fault α)
    (body : Bytes) : Definite (decode codec shape body) :=
  .ite (fun _ => failsOnly_error rfl) fun _ => definite_mapError _ GatewayError.ofPayload_inDoubt

theorem writeInput_definite (codec : Codec) (tail : String) (q : RecordQuery) (body : Bytes) :
    Definite (writeInput codec tail q body) :=
  FailsOnly.bind (address_definite q tail) fun _ => .bind (write_definite q) fun _ =>
    .bind (decode_definite codec _ body) fun _ => failsOnly_ok _

theorem headerText_definite (r : Request) (name : String) : Definite (headerText r name) := by
  unfold headerText
  split
  · exact failsOnly_ok _
  · split
    · exact failsOnly_ok _
    · exact failsOnly_error rfl

theorem negotiate_definite (r : Request) : Definite (Formats.negotiate r) :=
  FailsOnly.bind
    (.bind (headerText_definite r _) fun _ => definite_mapError _ GatewayError.ofPayload_inDoubt)
    fun _ => .bind (headerText_definite r _) fun _ =>
      (definite_mapError _ GatewayError.ofPayload_inDoubt).map

/-! ## Endpoints -/

section

variable {α : Type} {x : Except GatewayError α}

theorem not_inDoubt_bind {f : α → Except GatewayError Response} (hx : Definite x)
    (h : ∀ a, ¬(respond codec (f a)).InDoubt) : ¬(respond codec (x >>= f)).InDoubt := by
  cases x with
  | error e => exact not_inDoubt_failure (hx e rfl)
  | ok a => exact h a

/-- A call that is never in doubt, and whose success is told with no error. -/
theorem not_inDoubt_map {tell : α → Response} (hx : Definite x)
    (htell : ∀ a, (tell a).status < 400) : ¬(respond codec (x.map tell)).InDoubt := by
  cases x with
  | error e => exact not_inDoubt_failure (hx e rfl)
  | ok a => exact not_inDoubt_of_status (htell a)

/-- An answer is in doubt only if the request is one that writes, and by a write of the store,
which is then all that has become of the store. -/
def ToldByWrite (writes : Prop) (g : Gateway) (now : Instant) (a : Response × Gateway) : Prop :=
  a.1.InDoubt → writes ∧ ∃ w : WriteCall, LeavesDoubt (w.run now g.store).1 ∧
    a.2.store = (w.run now g.store).2

variable {writes : Prop}

theorem toldByWrite_of_not {a : Response × Gateway} (h : ¬a.1.InDoubt) :
    ToldByWrite writes g now a := fun hdoubt => absurd hdoubt h

theorem toldByWrite_orElse {call : α → Except GatewayError Response × Gateway} (hx : Definite x)
    (h : ∀ a, ToldByWrite writes g now (changed codec (call a))) :
    ToldByWrite writes g now (changed codec (orElse g x call)) := by
  cases x with
  | error e => exact toldByWrite_of_not (not_inDoubt_failure (hx e rfl))
  | ok a => exact h a

/-- A call that may write, and whose success is told with no error. -/
theorem toldByWrite_map (hwrites : writes) {outcome : Except GatewayError α × Gateway}
    (h : g.DoubtByWrite now outcome) {tell : α → Response} (htell : ∀ a, (tell a).status < 400) :
    ToldByWrite writes g now (changed codec (outcome.1.map tell, outcome.2)) := by
  obtain ⟨answer, g'⟩ := outcome
  intro hdoubt
  cases answer with
  | error e => exact ⟨hwrites, h e rfl (failure_inDoubt_iff.mp hdoubt)⟩
  | ok a => exact absurd hdoubt (not_inDoubt_of_status (htell a))

end

/-! ## Requests -/

/-- Whether a route under a method writes records before it answers. -/
def Route.Writes : Route → Method → Prop
  | .record _, m => m = .post ∨ m = .put ∨ m = .patch ∨ m = .delete
  | .operate _, m => m = .post
  | .scan .., _ | .execute .., _ | .taskStatus _, _ | .info _, _ | .cluster, _ => False

section

variable {α : Type} {writes : Prop}

theorem toldByWrite_bind {x : Except Response α} {f : α → Except Response (Response × Gateway)}
    (hx : FailsOnly Response.IsPlain x) (hf : ∀ a, ToldByWrite writes g now (answered g (f a))) :
    ToldByWrite writes g now (answered g (x >>= f)) := by
  cases x with
  | error refusal =>
    obtain ⟨status, text, rfl⟩ := hx refusal rfl
    exact toldByWrite_of_not (not_inDoubt_plain status text)
  | ok a => exact hf a

theorem toldByWrite_withFormats {go : Formats → Except Response (Response × Gateway)}
    (h : ∀ f, ToldByWrite writes g now (answered g (go f))) :
    ToldByWrite writes g now (answered g (withFormats r go)) := by
  unfold withFormats
  cases hformats : Formats.negotiate r with
  | error e => exact toldByWrite_of_not (not_inDoubt_failure (negotiate_definite r e hformats))
  | ok f => exact h f

end

theorem toldByWrite_recordCall (tail : String) (hmethod : r.method ∈ (Route.record tail).methods)
    (hhead : r.method ≠ .head) :
    ToldByWrite ((Route.record tail).Writes r.method) g now
      (answered g (recordCall g now tail r)) := by
  refine toldByWrite_withFormats fun f => toldByWrite_bind (parameters_plain _ r) fun q => ?_
  cases hm : r.method with
  | get =>
    exact toldByWrite_of_not <| not_inDoubt_bind (address_definite q tail) fun address =>
      not_inDoubt_bind (filterOf_definite _) fun filter =>
        not_inDoubt_map (g.getRecord_definite now address filter _) fun _ =>
          (by decide : 200 < 400)
  | delete =>
    refine toldByWrite_orElse (.bind (address_definite q tail) fun _ => (write_definite q).map)
      fun input => ?_
    exact toldByWrite_map (by simp [Route.Writes])
      (g.doubtByWrite_deleteRecord now input.1 input.2.generation) fun _ => (by decide : 204 < 400)
  | post =>
    refine toldByWrite_bind (bodyOf_plain r) fun body => ?_
    refine toldByWrite_orElse (.bind (address_definite q tail) fun _ =>
      .bind (word_definite _ _) fun _ => .bind (decode_definite _ _ _) fun _ => failsOnly_ok _)
      fun input => ?_
    exact toldByWrite_map (by simp [Route.Writes])
      (g.doubtByWrite_putRecord now input.1 input.2.2 _) fun _ => (by decide : 201 < 400)
  | put =>
    refine toldByWrite_bind (bodyOf_plain r) fun body => ?_
    refine toldByWrite_orElse (writeInput_definite f.request tail q body) fun input => ?_
    exact toldByWrite_map (by simp [Route.Writes])
      (g.doubtByWrite_putRecord now input.1 input.2.2 _) fun _ => (by decide : 204 < 400)
  | patch =>
    refine toldByWrite_bind (bodyOf_plain r) fun body => ?_
    refine toldByWrite_orElse (writeInput_definite f.request tail q body) fun input => ?_
    exact toldByWrite_map (by simp [Route.Writes])
      (g.doubtByWrite_putRecord now input.1 input.2.2 _) fun _ => (by decide : 204 < 400)
  | head => exact absurd hm hhead
  | other =>
    rw [hm] at hmethod
    exact absurd hmethod (by simp [Route.methods])

theorem toldByWrite_call (route : Route) (hmethod : r.method ∈ route.methods)
    (hhead : r.method ≠ .head) :
    ToldByWrite (route.Writes r.method) g now (answered g (call g now fresh route r)) := by
  cases route with
  | record tail =>
    show ToldByWrite _ g now (answered g (if r.method = .head then _ else recordCall g now tail r))
    rw [if_neg hhead]
    exact toldByWrite_recordCall tail hmethod hhead
  | operate tail =>
    refine toldByWrite_withFormats fun f => toldByWrite_bind (parameters_plain _ r) fun q =>
      toldByWrite_bind (bodyOf_plain r) fun body => toldByWrite_orElse ?_ fun input => ?_
    · exact .bind (address_definite q tail) fun _ => .bind (write_definite q) fun _ =>
        .bind (decode_definite _ _ _) fun _ => failsOnly_ok _
    · exact toldByWrite_map (by simpa [Route.methods, Route.Writes] using hmethod)
        (g.doubtByWrite_operate now input.1 _ _) fun _ => (by decide : 200 < 400)
  | scan ns set =>
    refine toldByWrite_withFormats fun f => toldByWrite_bind (nameOf_plain ns) fun ns =>
      toldByWrite_bind (optionalName_plain set) fun set =>
        toldByWrite_bind (parameters_plain _ r) fun q => toldByWrite_of_not ?_
    refine not_inDoubt_bind (selectionOf_definite ns set _) fun selection =>
      not_inDoubt_bind (number_definite _ _ _) fun size => ?_
    exact not_inDoubt_map (g.scan_definite now selection _ size _) fun _ => (by decide : 200 < 400)
  | execute ns set =>
    refine toldByWrite_withFormats fun f => toldByWrite_bind (nameOf_plain ns) fun ns =>
      toldByWrite_bind (optionalName_plain set) fun set =>
        toldByWrite_bind (parameters_plain _ r) fun q =>
          toldByWrite_bind (bodyOf_plain r) fun body =>
            toldByWrite_orElse (.bind (selectionOf_definite ns set _) fun _ =>
              (decode_definite _ _ _).map) fun input => toldByWrite_of_not ?_
    exact not_inDoubt_map (g.submit_definite now fresh input.1 _) fun _ => (by decide : 202 < 400)
  | taskStatus task =>
    refine toldByWrite_withFormats fun f => toldByWrite_bind (nameOf_plain task) fun task =>
      toldByWrite_of_not ?_
    exact not_inDoubt_map (g.taskStatus_definite now task) fun _ => (by decide : 200 < 400)
  | info node =>
    refine toldByWrite_withFormats fun f => toldByWrite_bind (optionalName_plain node) fun node =>
      toldByWrite_bind (bodyOf_plain r) fun body => toldByWrite_of_not ?_
    exact not_inDoubt_bind (decode_definite _ _ _) fun commands =>
      not_inDoubt_map (g.info_definite now node commands) fun _ => (by decide : 200 < 400)
  | cluster =>
    exact toldByWrite_withFormats fun f => toldByWrite_of_not <|
      not_inDoubt_map g.nodeNames_definite fun _ => (by decide : 200 < 400)

/-- A response in doubt answers a request that writes records, and the store has made the write. -/
theorem handle_inDoubt (g : Gateway) (now : Instant) (fresh : TaskId) (r : Request)
    (h : (handle g now fresh r).1.InDoubt) :
    ∃ route, Route.ofPath? r.path = some route ∧ route.Writes r.method ∧
      ∃ w : WriteCall, LeavesDoubt (w.run now g.store).1 ∧
        (handle g now fresh r).2.store = (w.run now g.store).2 := by
  by_cases hhead : r.method = .head
  · have hbody : (handle g now fresh r).1 = (handle g now fresh r).1.withoutBody := by
      simp [handle, hhead, Response.withoutBody]
    rw [hbody] at h
    exact absurd h (not_inDoubt_withoutBody _)
  cases hroute : Route.ofPath? r.path with
  | none =>
    have hmissing : (handle g now fresh r).1 = .bare 404 := by simp [handle, hroute, hhead]
    rw [hmissing] at h
    exact absurd h (not_inDoubt_bare 404)
  | some route =>
    by_cases hmethod : r.method ∈ route.methods
    · rw [handle_of_route hroute hmethod hhead] at h ⊢
      obtain ⟨hwrites, hw⟩ := toldByWrite_call route hmethod hhead h
      exact ⟨route, rfl, hwrites, hw⟩
    · have hrefused : (handle g now fresh r).1 = { status := 405, allow := some route.allow } := by
        simp [handle, hroute, hhead, onRoute, hmethod]
      rw [hrefused] at h
      exact absurd h (not_inDoubt_of_contentType nofun)

/-- Doubt comes from writes only, whatever the state of the store, its nodes and its fault. A call
of the store is in doubt if and only if it is a put, a delete or an operate, the nodes are not all
down, the fault is the one that keeps back the answers of writes, and without it the call would
succeed. A response is in doubt only if its request creates, replaces, updates, deletes or operates
on a record and the store has made such a write. Operations that only report go through the store as
a write, and that is the one case in which nothing can have been modified. -/
theorem doubt_by_writes_only (call : StoreCall) (s : Store) (g : Gateway) (now : Instant)
    (fresh : TaskId) (r : Request) :
    ((call.serve now s).1.InDoubt ↔
        ∃ w, call = .write w ∧ s.Reachable ∧ s.fault = some (.timeout true) ∧
          ∃ a, (w.run now { s with fault := none }).1 = .ok a) ∧
      ((handle g now fresh r).1.InDoubt →
        (∃ route, Route.ofPath? r.path = some route ∧ route.Writes r.method) ∧
          g.store.Reachable ∧ g.store.fault = some (.timeout true) ∧
          ∃ (w : WriteCall) (a : WriteAnswer),
            (w.run now { g.store with fault := none }).1 = .ok a ∧
              (handle g now fresh r).2.store = (w.run now g.store).2) := by
  refine ⟨call.inDoubt_iff now s, fun h => ?_⟩
  obtain ⟨route, hroute, hwrites, w, hdoubt, hstore⟩ := handle_inDoubt g now fresh r h
  obtain ⟨hup, hfault, a, ha⟩ := WriteCall.leavesDoubt_iff.mp hdoubt
  exact ⟨⟨route, hroute, hwrites⟩, hup, hfault, w, a, ha, hstore⟩

/-- A gateway whose store has one record, and keeps back the answers of writes. -/
def unanswering : Gateway :=
  { store := { WriteCall.oneRecord none with fault := some (.timeout true) }
    scanLimits := {}
    tasks := { limits := {} } }

/-- The path of the one record behind an endpoint. -/
def oneRecordAt (endpoint : String) : String :=
  "/v1/" ++ endpoint ++ "/test/AQEBAQEBAQEBAQEBAQEBAQEBAQE"

/-- The record is put by a call of the store, and deleted by a request. Both are in doubt. -/
theorem doubt_by_writes_only_unanswering :
    let put := StoreCall.write (WriteCall.putN none)
    let r : Request := { method := .delete, path := oneRecordAt "kvs", query := "keytype=DIGEST" }
    (put.serve 0 unanswering.store).1.InDoubt ∧ (handle unanswering 0 ⟨1⟩ r).1.InDoubt ∧
      ∃ (w : WriteCall) (a : WriteAnswer),
        (w.run 0 { unanswering.store with fault := none }).1 = .ok a ∧
          (handle unanswering 0 ⟨1⟩ r).2.store = (w.run 0 unanswering.store).2 := by
  intro put r
  have hdoubt : (handle unanswering 0 ⟨1⟩ r).1.InDoubt :=
    ⟨.json, .storeTimeout true, by decide +kernel, rfl⟩
  obtain ⟨hput, hrequest⟩ := doubt_by_writes_only put unanswering.store unanswering 0 ⟨1⟩ r
  obtain ⟨-, hup, hfault, hwrite⟩ := hrequest hdoubt
  exact ⟨hput.mpr ⟨WriteCall.putN none, rfl, hup, hfault, .written, rfl⟩, hdoubt, hwrite⟩

/-- Operations that only read a bin are in doubt, as a call of the store and as a request, and leave
the record as it is. The same bin is read without doubt by a get. -/
theorem reads_in_doubt :
    let address : Address := ⟨"test", none, .digest WriteCall.oneDigest⟩
    let operate := StoreCall.write (.operate address [.read "n"] {})
    let r : Request :=
      { method := .post
        path := oneRecordAt "operate"
        query := "keytype=DIGEST"
        body := Bytes.utf8
          "\x7b\"opsList\":[\x7b\"operationType\":\"READ\",\"bin\":\"n\"\x7d]\x7d" }
    (∀ op ∈ [Operation.read "n"], op.isRead) ∧
      (operate.serve 0 unanswering.store).1.InDoubt ∧
      (operate.serve 0 unanswering.store).2 = unanswering.store ∧
      (handle unanswering 0 ⟨1⟩ r).1.InDoubt ∧
      unanswering.store.get 0 address {} = .error (.timeout false) := by
  intro address operate r
  have hreads : ∀ op ∈ [Operation.read "n"], op.isRead := by decide
  have hwf : unanswering.store.WellFormed := (WriteCall.oneRecord_wellFormed none).of_spaces rfl
  have hstore : ((WriteCall.operate address [.read "n"] {}).run 0 unanswering.store).2 =
      unanswering.store := WriteCall.run_reads hwf hreads 0 {}
  refine ⟨hreads, ⟨.timeout true, rfl, rfl⟩, hstore, ?_, rfl⟩
  exact ⟨.json, .storeTimeout true, by decide +kernel, rfl⟩

end Http
end RecordService
