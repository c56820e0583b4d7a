import RecordService.Http.Handler
import RecordService.Proofs.Store.Write

/-!
# Reads under a filter

A read under a filter tells nothing of the records that the filter keeps back: not what is in them,
and not that there are any. So two gateways that agree in the records that pass give the same
answers, whatever else is stored.

* `Records.passing`: the live records that pass a filter.
* `Records.find?_passing`, `Records.selected_eq_passing`: a look-up and a scan see only these.
* `Store.AgreeUnder`: two stores have the same of them, and stand under the same faults.
* `Gateway.reads_agree`: no read under the filter tells them apart, nor does its response.
-/

namespace RecordService

variable {now : Instant} {ns : String} {f : Expression}

/-! ## What a read sees -/

namespace Records

variable {rs : Records}

/-- The live records that pass a filter. -/
def passing (now : Instant) (f : Expression) (rs : Records) : Records :=
  rs.filter fun e => e.2.isLive now && e.2.passes (some f)

theorem find?_passing (h : Ordered.Sorted rs) (now : Instant) (f : Expression) (d : Digest) :
    Ordered.find? d (rs.passing now f) = (rs.live? now d).filter (·.passes (some f)) := by
  rw [passing, live?, Ordered.find?_filter h, Option.filter_filter]

theorem passing_behind (start : Option Digest) (rs : Records) :
    (rs.behind start).passing now f = (rs.passing now f).behind start := by
  cases start with
  | none => rfl
  | some d =>
    simp only [behind, passing, List.filter_filter]
    exact List.filter_congr fun e _ => Bool.and_comm _ _

/-- A scan under a filter is a scan of the records that pass it. -/
theorem selected_eq_passing (start : Option Digest) (ns : String) (set : Option String) :
    (rs.behind start).selected now ⟨ns, set, some f⟩ =
      ((rs.passing now f).behind start).filter (·.2.isIn set) := by
  rw [← passing_behind, passing, selected, List.filter_filter]
  exact List.filter_congr fun e _ => by rw [Bool.and_right_comm, Bool.and_comm]

end Records

namespace Store

variable {s t : Store}

/-- The records of a namespace that pass a filter, or the error that there is no namespace. -/
def passing (s : Store) (now : Instant) (ns : String) (f : Expression) :
    Except StoreError Records :=
  (s.space ns).map (Records.passing now f)

/-- Two stores stand under the same faults, and have the same live records that pass a filter. -/
structure AgreeUnder (now : Instant) (ns : String) (f : Expression) (s t : Store) : Prop where
  settings : s.settings = t.settings
  nodes : ∀ node, s.isUp node = t.isUp node
  fault : s.fault = t.fault
  records : (s.space? ns).map (Records.passing now f) = (t.space? ns).map (Records.passing now f)

theorem AgreeUnder.accessRead (h : s.AgreeUnder now ns f t) : s.accessRead = t.accessRead := by
  have hup : s.isUp = t.isUp := funext h.nodes
  rw [Store.accessRead, Store.accessRead, access, access, h.settings, hup, h.fault]

theorem passing_eq (s : Store) (now : Instant) (ns : String) (f : Expression) :
    s.passing now ns f =
      match (s.space? ns).map (Records.passing now f) with
      | some rs => .ok rs
      | none => .error (.namespaceNotFound ns) := by
  unfold passing space
  cases s.space? ns <;> rfl

theorem AgreeUnder.passing (h : s.AgreeUnder now ns f t) :
    s.passing now ns f = t.passing now ns f := by
  rw [passing_eq, passing_eq, h.records]

/-- A page under a filter is a page of the records that pass it. -/
theorem scan_eq_passing (s : Store) (now : Instant) (request : ScanRequest)
    (hf : request.selection.filter = some f) :
    s.scan now request =
      s.accessRead.bind fun _ =>
        if request.size = 0 then .error (.parameter "max_records must be positive")
        else
          (s.passing now request.selection.ns f).bind fun rs =>
            (ResumeToken.digestOf request.resume).map fun start =>
              Records.page request.size
                (fun e =>
                  e.2.toRecord request.selection.ns e.1 (e.2.bins.project request.bins) now)
                ((rs.behind start).filter (·.2.isIn request.selection.set)) := by
  obtain ⟨⟨ns, set, filter⟩, size, resume, bins⟩ := request
  cases hf
  unfold scan passing
  simp only []
  cases s.accessRead with
  | error e => rfl
  | ok =>
    simp only [bind, Except.bind]
    split
    · rfl
    · cases s.space ns with
      | error e => rfl
      | ok rs =>
        simp only [Except.map]
        cases ResumeToken.digestOf resume with
        | error e => rfl
        | ok start =>
          simp only [Records.selected_eq_passing]
          rfl

end Store

/-! ## The calls of the gateway -/

namespace Gateway

variable {g g' : Gateway}

/-- What a filter keeps back is not found, as if it were not there. -/
theorem getRecord_eq_passing (h : g.store.WellFormed) (address : Address)
    (bins : Option (List String)) :
    g.getRecord now address (some f) bins =
      (g.store.accessRead.mapError .ofStore).bind fun _ =>
        ((g.store.passing now address.ns f).mapError .ofStore).bind fun rs =>
          match Ordered.find? address.digest rs with
          | none => .error .recordNotFound
          | some r =>
            .ok { r.toRecord address.ns address.digest (r.bins.project bins) now with
              address := address } := by
  unfold getRecord Store.get Store.passing
  cases g.store.accessRead with
  | error e => rfl
  | ok =>
    cases hspace : g.store.space address.ns with
    | error e => rfl
    | ok rs =>
      simp only [bind, Except.bind, Except.map, mapError_ok,
        Records.find?_passing (h.space hspace).sorted]
      cases rs.live? now address.digest with
      | none => rfl
      | some r =>
        cases hpass : r.passes (some f) with
        | false =>
          simp only [Option.filter, hpass]
          rfl
        | true =>
          simp only [Option.filter, hpass]
          rfl

theorem recordExists_eq_passing (h : g.store.WellFormed) (address : Address) :
    g.recordExists now address (some f) =
      (g.store.accessRead.mapError .ofStore).bind fun _ =>
        ((g.store.passing now address.ns f).mapError .ofStore).bind fun rs =>
          if (Ordered.find? address.digest rs).isSome then .ok () else .error .recordNotFound := by
  unfold recordExists Store.exists_ Store.passing
  cases g.store.accessRead with
  | error e => rfl
  | ok =>
    cases hspace : g.store.space address.ns with
    | error e => rfl
    | ok rs =>
      simp only [bind, Except.bind, Except.map, mapError_ok, pure, Except.pure,
        Records.find?_passing (h.space hspace).sorted]
      cases rs.live? now address.digest with
      | none => rfl
      | some r =>
        cases hpass : r.passes (some f) with
        | false =>
          simp only [Option.filter, Option.any_some, hpass]
          rfl
        | true =>
          simp only [Option.filter, Option.any_some, hpass]
          rfl

section Agree

variable (hg : g.store.WellFormed) (hg' : g'.store.WellFormed)
  (h : g.store.AgreeUnder now ns f g'.store)

include hg hg' h

theorem getRecord_agree {address : Address} (hns : address.ns = ns)
    (bins : Option (List String)) :
    g.getRecord now address (some f) bins = g'.getRecord now address (some f) bins := by
  rw [getRecord_eq_passing hg, getRecord_eq_passing hg', hns, h.accessRead, h.passing]

theorem recordExists_agree {address : Address} (hns : address.ns = ns) :
    g.recordExists now address (some f) = g'.recordExists now address (some f) := by
  rw [recordExists_eq_passing hg, recordExists_eq_passing hg', hns, h.accessRead, h.passing]

omit hg hg' in
theorem scan_agree (hlimits : g.scanLimits = g'.scanLimits) (set : Option String)
    (bins : Option (List String)) (size : Option Nat) (token : Option String) :
    g.scan now ⟨ns, set, some f⟩ bins size token =
      g'.scan now ⟨ns, set, some f⟩ bins size token := by
  unfold scan ScanLimits.scan
  rw [hlimits]
  congr 2
  funext size
  rw [g.store.scan_eq_passing now _ rfl, g'.store.scan_eq_passing now _ rfl, h.accessRead,
    h.passing]

end Agree

end Gateway

/-! ## Requests -/

namespace Http

/-- A request that reads a record of a namespace or scans it, and carries a filter. Where its query
or a name in its path cannot be read at all, there is nothing to ask of them. -/
def ReadsUnder (r : Request) (ns : String) (f : Expression) : Prop :=
  match Route.ofPath? r.path with
  | some (.record tail) =>
    (r.method = .get ∨ r.method = .head) ∧
      ∀ q ∈ RecordQuery.ofQuery? r.query,
        filterOf q.filter = .ok (some f) ∧ ∀ address, q.address tail = .ok address → address.ns = ns
  | some (.scan raw _) =>
    (∀ name, nameOf raw = .ok name → name = ns) ∧
      ∀ q ∈ ScanQuery.ofQuery? r.query, filterOf q.filter = .ok (some f)
  | _ => False

variable {g g' : Gateway} {r : Request} {fresh fresh' : TaskId}

theorem parameters_eq_ok_iff {α : Type} {read : String → Option α} {q : α} :
    parameters read r = .ok q ↔ read r.query = some q := by
  unfold parameters
  cases read r.query <;> simp

section Agree

variable (hg : g.store.WellFormed) (hg' : g'.store.WellFormed)
  (h : g.store.AgreeUnder now ns f g'.store)

include hg hg' h

theorem getRecord_agree {q : RecordQuery} {tail : String} (codec : Codec)
    (hq : filterOf q.filter = .ok (some f))
    (hns : ∀ address, q.address tail = .ok address → address.ns = ns) :
    getRecord g now codec tail q = getRecord g' now codec tail q := by
  unfold getRecord
  cases haddress : q.address tail with
  | error e => rfl
  | ok address =>
    simp only [bind, Except.bind, hq]
    rw [Gateway.getRecord_agree hg hg' h (hns address haddress)]

theorem headRecord_agree {q : RecordQuery} {tail : String}
    (hq : filterOf q.filter = .ok (some f))
    (hns : ∀ address, q.address tail = .ok address → address.ns = ns) :
    headRecord g now tail q = headRecord g' now tail q := by
  unfold headRecord
  cases haddress : q.address tail with
  | error e => rfl
  | ok address =>
    simp only [bind, Except.bind, hq]
    rw [Gateway.recordExists_agree hg hg' h (hns address haddress)]

omit hg hg' in
theorem scan_agree {q : ScanQuery} (hlimits : g.scanLimits = g'.scanLimits) (codec : Codec)
    (set : Option String) (hq : filterOf q.filter = .ok (some f)) :
    scan g now codec ns set q = scan g' now codec ns set q := by
  unfold scan selectionOf
  rw [hq]
  cases q.size with
  | error e => rfl
  | ok size =>
    simp only [bind, Except.bind, Except.map]
    rw [Gateway.scan_agree h hlimits]

theorem call_record_agree {tail : String} (hmethod : r.method = .get ∨ r.method = .head)
    (hq : ∀ q ∈ RecordQuery.ofQuery? r.query,
      filterOf q.filter = .ok (some f) ∧
        ∀ address, q.address tail = .ok address → address.ns = ns) :
    (call g now fresh (.record tail) r).map (·.1) =
      (call g' now fresh' (.record tail) r).map (·.1) := by
  unfold call recordCall withFormats
  cases hread : parameters RecordQuery.ofQuery? r with
  | error refusal =>
    rcases hmethod with hget | hhead
    · cases Formats.negotiate r <;> simp [hget, bind, Except.bind, Except.map]
    · simp [hhead, bind, Except.bind, Except.map]
  | ok q =>
    obtain ⟨hfilter, hns⟩ := hq q (parameters_eq_ok_iff.mp hread)
    rcases hmethod with hget | hhead
    · cases Formats.negotiate r with
      | error e => simp [hget, Except.map]
      | ok formats =>
        simp [hget, bind, Except.bind, Except.map, pure, Except.pure, unchanged,
          getRecord_agree hg hg' h formats.response hfilter hns]
    · simp [hhead, bind, Except.bind, Except.map, pure, Except.pure,
        headRecord_agree hg hg' h hfilter hns]

omit hg hg' in
theorem call_scan_agree {raw : String} {set : Option String}
    (hlimits : g.scanLimits = g'.scanLimits) (hns : ∀ name, nameOf raw = .ok name → name = ns)
    (hq : ∀ q ∈ ScanQuery.ofQuery? r.query, filterOf q.filter = .ok (some f)) :
    (call g now fresh (.scan raw set) r).map (·.1) =
      (call g' now fresh' (.scan raw set) r).map (·.1) := by
  simp only [call, withFormats, bind, Except.bind]
  cases Formats.negotiate r with
  | error e => rfl
  | ok formats =>
    cases hname : nameOf raw with
    | error refusal => rfl
    | ok name =>
      cases hns name hname
      cases nameOf? set with
      | error refusal => rfl
      | ok set =>
        cases hread : parameters ScanQuery.ofQuery? r with
        | error refusal => rfl
        | ok q =>
          have hscan :=
            scan_agree h hlimits formats.response set (hq q (parameters_eq_ok_iff.mp hread))
          simp only [unchanged, hscan]
          rfl

omit hg hg' h in
/-- The response on a route is told by the response of the call. -/
theorem onRoute_response (g : Gateway) (now : Instant) (fresh : TaskId) (route : Route)
    (r : Request) :
    (onRoute g now fresh route r).1 =
      if route.methods.contains r.method then
        match (call g now fresh route r).map (·.1) with
        | .ok response => response
        | .error refusal => refusal
      else { status := 405, allow := some route.allow } := by
  unfold onRoute
  split
  · cases call g now fresh route r <;> rfl
  · rfl

theorem handle_agree (hlimits : g.scanLimits = g'.scanLimits) (hr : ReadsUnder r ns f) :
    (handle g now fresh r).1 = (handle g' now fresh' r).1 := by
  have hcall : ∀ route, Route.ofPath? r.path = some route →
      (call g now fresh route r).map (·.1) = (call g' now fresh' route r).map (·.1) := by
    intro route hpath
    rw [ReadsUnder, hpath] at hr
    cases route with
    | record tail => exact call_record_agree hg hg' h hr.1 hr.2
    | scan raw set => exact call_scan_agree h hlimits hr.1 hr.2
    | operate | execute | taskStatus | info | cluster => exact hr.elim
  unfold handle
  cases hpath : Route.ofPath? r.path with
  | none => rfl
  | some route =>
    simp only []
    rw [onRoute_response, onRoute_response, hcall route hpath]

end Agree

end Http

/-! ## Two gateways that agree -/

namespace Gateway

/-- Two gateways that agree in the live records that pass a filter give the same answers to every
read under that filter: the same record, the same page with the same token, the same error. The
responses to such requests are the same as well. -/
theorem reads_agree {g g' : Gateway} (hg : g.store.WellFormed) (hg' : g'.store.WellFormed)
    (hlimits : g.scanLimits = g'.scanLimits) (h : g.store.AgreeUnder now ns f g'.store) :
    (∀ address bins, address.ns = ns →
      g.getRecord now address (some f) bins = g'.getRecord now address (some f) bins) ∧
    (∀ address, address.ns = ns →
      g.recordExists now address (some f) = g'.recordExists now address (some f)) ∧
    (∀ set bins size token,
      g.scan now ⟨ns, set, some f⟩ bins size token =
        g'.scan now ⟨ns, set, some f⟩ bins size token) ∧
    ∀ fresh fresh' r, Http.ReadsUnder r ns f →
      (Http.handle g now fresh r).1 = (Http.handle g' now fresh' r).1 :=
  ⟨fun _ bins hns => getRecord_agree hg hg' h hns bins,
    fun _ hns => recordExists_agree hg hg' h hns,
    fun set bins size token => scan_agree h hlimits set bins size token,
    fun _ _ _ hr => Http.handle_agree hg hg' h hlimits hr⟩

/-- A gateway before a store with the one record and maybe another one behind it. -/
def besideOne (others : Records) : Gateway :=
  { store := { WriteCall.oneRecord none with
      spaces :=
        [("test", (WriteCall.oneDigest, ⟨none, none, [("n", .int 1)], 1, none⟩) :: others)] }
    scanLimits := {}
    tasks := { limits := {} } }

/-- A record without the bin of the one. -/
def withoutN : Records := [(WriteCall.otherDigest, ⟨none, none, [("m", .int 5)], 3, none⟩)]

/-- The filter that a record passes if it has the bin. -/
def hasN : Expression := .binExists "n"

/-- A scan under the filter. -/
def scanForN : Http.Request :=
  { method := .get, path := "/v1/scan/test", query := "filterexp=galCaW5FeGlzdHOhbg" }

theorem besideOne_wellFormed : (besideOne []).store.WellFormed :=
  WriteCall.oneRecord_wellFormed none

theorem besideOne_withoutN_wellFormed : (besideOne withoutN).store.WellFormed where
  sorted := List.pairwise_singleton _ _
  records := by
    refine List.forall_mem_singleton.mpr ⟨?_, ?_⟩
    · simp only [Ordered.Sorted, withoutN]
      decide
    · simp [withoutN, Ordered.Sorted]

theorem scanForN_readsUnder : Http.ReadsUnder scanForN "test" hasN := by
  have hroute : Http.Route.ofPath? scanForN.path = some (.scan "test" none) := by
    decide +kernel
  have hsegment : Http.segmentText? "test" = some "test" := by decide +kernel
  have hname : Http.nameOf "test" = .ok "test" := by rw [Http.nameOf, hsegment]
  have hquery : Http.ScanQuery.ofQuery? scanForN.query =
      some { filter := some "galCaW5FeGlzdHOhbg" } := by decide +kernel
  have hfilter : Http.filterOf (some "galCaW5FeGlzdHOhbg") = .ok (some hasN) := rfl
  rw [Http.ReadsUnder, hroute]
  refine ⟨fun name h => ?_, fun q hq => ?_⟩
  · rw [hname] at h
    exact (Except.ok.inj h).symm
  · rw [hquery] at hq
    cases hq
    exact hfilter

/-- With the other record or without it: there is no such record, the page has no token, and the
response to a scan is the same. -/
theorem reads_agree_withoutN :
    (besideOne withoutN).store.count 0 "test" = 2 ∧
    (besideOne []).getRecord 0 ⟨"test", none, .digest WriteCall.otherDigest⟩ (some hasN) none =
      (besideOne withoutN).getRecord 0 ⟨"test", none, .digest WriteCall.otherDigest⟩ (some hasN)
        none ∧
    (besideOne []).scan 0 ⟨"test", none, some hasN⟩ none (some 1) none =
      (besideOne withoutN).scan 0 ⟨"test", none, some hasN⟩ none (some 1) none ∧
    (Http.handle (besideOne []) 0 ⟨1⟩ scanForN).1 =
      (Http.handle (besideOne withoutN) 0 ⟨1⟩ scanForN).1 := by
  have hagree : (besideOne []).store.AgreeUnder 0 "test" hasN (besideOne withoutN).store :=
    ⟨rfl, fun _ => rfl, rfl, rfl⟩
  obtain ⟨hget, -, hscan, hhandle⟩ :=
    reads_agree besideOne_wellFormed besideOne_withoutN_wellFormed rfl hagree
  exact ⟨rfl, hget _ none rfl, hscan none none (some 1) none,
    hhandle ⟨1⟩ ⟨1⟩ scanForN scanForN_readsUnder⟩

end Gateway

end RecordService
