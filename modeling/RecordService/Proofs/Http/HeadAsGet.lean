import RecordService.Proofs.Gateway.FilteredReads
import RecordService.Proofs.Http.BothFormats

/-!
# HEAD as GET without the body

A request under `HEAD` is answered like the same request under `GET`, but for the body. For most
routes the two run through the same code. A record is looked for under `HEAD` and read under `GET`,
and the formats of the request are of no account under `HEAD`.

* `Gateway.recordExists_eq_getRecord`: a record is found if and only if it can be read, and what
  stands in the way is the same.
* `headRecord_status`: so the two endpoints have the same status.
* `head_as_get`: so has a request to any target, if its formats are found.
-/

namespace RecordService

/-- What is told of a record that is looked for is what is told of one that is read, whatever bins
are asked for. A record that a filter hides is missing in both cases. -/
theorem Gateway.recordExists_eq_getRecord (g : Gateway) (now : Instant) (address : Address)
    (filter : Option Expression) (bins : Option (List String)) :
    g.recordExists now address filter =
      (g.getRecord now address filter bins).map fun _ => () := by
  unfold recordExists getRecord Store.exists_ Store.get
  cases g.store.accessRead with
  | error e => rfl
  | ok =>
    cases g.store.space address.ns with
    | error e => rfl
    | ok rs =>
      simp only [bind, Except.bind, pure, Except.pure]
      cases rs.live? now address.digest with
      | none => rfl
      | some r =>
        cases hpass : r.passes filter with
        | false =>
          simp only [Option.any_some, hpass]
          rfl
        | true =>
          simp only [Option.any_some, hpass]
          rfl

namespace Http

variable {g : Gateway} {now : Instant} {fresh : TaskId} {r : Request}

/-- The same request under another method. -/
def Request.under (m : Method) (r : Request) : Request := { r with method := m }

/-- The endpoints of a record have the same status under both methods. -/
theorem headRecord_status (g : Gateway) (now : Instant) (codec : Codec) (tail : String)
    (q : RecordQuery) :
    (headRecord g now tail q).status = (respond codec (getRecord g now codec tail q)).status := by
  unfold headRecord getRecord
  cases q.address tail with
  | error e => rfl
  | ok address =>
    cases filterOf q.filter with
    | error e => rfl
    | ok filter =>
      simp only [bind, Except.bind,
        g.recordExists_eq_getRecord now address filter (binNames q.bins)]
      cases g.getRecord now address filter (binNames q.bins) <;> rfl

/-- The routes under `HEAD` are those under `GET`. -/
theorem Route.head_mem_methods_iff (route : Route) :
    .head ∈ route.methods ↔ .get ∈ route.methods := by
  cases route <;> simp [methods]

/-- A request that asks for no body is answered as the call says, but for the body. -/
theorem handle_of_head {route : Route} (hroute : Route.ofPath? r.path = some route)
    (hmethod : r.method ∈ route.methods) (hhead : r.method = .head) :
    handle g now fresh r =
      ((answered g (call g now fresh route r)).1.withoutBody,
        (answered g (call g now fresh route r)).2) := by
  unfold handle onRoute
  rw [hroute]
  simp only [List.contains_iff_mem.mpr hmethod, if_true, if_pos hhead]
  cases call g now fresh route r <;> rfl

/-- On its route a request has the same status under both methods, if its formats are found, and
leaves the same gateway. -/
theorem call_head (g : Gateway) (now : Instant) (fresh : TaskId) {f : Formats}
    (hformats : Formats.negotiate r = .ok f) (route : Route) :
    (answered g (call g now fresh route (r.under .head))).1.status =
        (answered g (call g now fresh route (r.under .get))).1.status ∧
      (answered g (call g now fresh route (r.under .head))).2 =
        (answered g (call g now fresh route (r.under .get))).2 := by
  cases route with
  | record tail =>
    have hget : call g now fresh (.record tail) (r.under .get) =
        (parameters RecordQuery.ofQuery? r).bind fun q =>
          .ok (unchanged g f.response (getRecord g now f.response tail q)) := by
      show withFormats (r.under .get) _ = _
      unfold withFormats
      rw [show Formats.negotiate (r.under .get) = .ok f from hformats]
      rfl
    have hhead : call g now fresh (.record tail) (r.under .head) =
        (parameters RecordQuery.ofQuery? r).bind fun q => .ok (headRecord g now tail q, g) := rfl
    rw [hget, hhead]
    cases parameters RecordQuery.ofQuery? r with
    | error refusal => exact ⟨rfl, rfl⟩
    | ok q => exact ⟨headRecord_status g now f.response tail q, rfl⟩
  -- The other routes do not look at the method.
  | operate | scan | execute | taskStatus | info | cluster => exact ⟨rfl, rfl⟩

/-- A request to any target, whatever it asks for and however it is spelled, has under `HEAD` the
status that it has under `GET`, in every state of the gateway and under every fault, and comes
without a body. Both leave the gateway the same. Only the formats have to be found, which `GET`
answers in. -/
theorem head_as_get (g : Gateway) (now : Instant) (fresh : TaskId) {f : Formats}
    (hformats : Formats.negotiate r = .ok f) :
    (handle g now fresh (r.under .head)).1.status = (handle g now fresh (r.under .get)).1.status ∧
      (handle g now fresh (r.under .head)).1.body = [] ∧
      (handle g now fresh (r.under .head)).2 = (handle g now fresh (r.under .get)).2 := by
  cases hroute : Route.ofPath? r.path with
  | none => simp [handle, hroute, Response.withoutBody, Request.under]
  | some route =>
    by_cases hget : .get ∈ route.methods
    · have hhead : .head ∈ route.methods := route.head_mem_methods_iff.mpr hget
      obtain ⟨hstatus, hgateway⟩ := call_head g now fresh hformats route
      rw [handle_of_route (r := r.under .get) hroute hget nofun]
      rw [handle_of_head (r := r.under .head) hroute hhead rfl]
      exact ⟨hstatus, rfl, hgateway⟩
    · have hhead : .head ∉ route.methods := fun h => hget (route.head_mem_methods_iff.mp h)
      simp [handle, onRoute, hroute, Response.withoutBody, Request.under, hget, hhead]

/-- A look, by its digest and under a filter, at a record that does not pass it. -/
def lookForHidden : Request :=
  { method := .get, path := "/v1/kvs/test/AgICAgICAgICAgICAgICAgICAgI"
    query := "keytype=DIGEST&filterexp=galCaW5FeGlzdHOhbg" }

/-- The record is there, and under both methods it is as if it were not. -/
theorem head_as_get_hidden :
    let g := Gateway.besideOne Gateway.withoutN
    let head := handle g 0 ⟨1⟩ (lookForHidden.under .head)
    let get := handle g 0 ⟨1⟩ (lookForHidden.under .get)
    Formats.negotiate lookForHidden = .ok ⟨.json, .json⟩ ∧
      (g.store.record? "test" WriteCall.otherDigest).isSome ∧
      get.1.status = 404 ∧ head.1.status = 404 ∧ head.1.body = [] ∧ head.2 = get.2 := by
  intro g head get
  have hformats : Formats.negotiate lookForHidden = .ok ⟨.json, .json⟩ := rfl
  have hget : get.1.status = 404 := by decide +kernel
  obtain ⟨hstatus, hbody, hgateway⟩ := head_as_get g 0 ⟨1⟩ hformats
  exact ⟨hformats, rfl, hget, hstatus.trans hget, hbody, hgateway⟩

end Http
end RecordService
