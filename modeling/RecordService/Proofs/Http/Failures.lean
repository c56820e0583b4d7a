import RecordService.Proofs.Http.BothFormats
import RecordService.Proofs.Payload.ResponseBody

/-!
# Failures as they are told

A request that fails is answered with a body that tells the kind of the error, a text and whether a
write is in doubt. Some requests come to nothing before that: where a name in the path, the query
or the body cannot be read at all, the answer is in plain text.

* `ErrorBody.read_write`: the body that tells of an error is read back.
* `Response.TellsError`: a response tells of an error of the gateway.
* `Route.Reads`: a request can be read as far as its route asks, whatever that says.
* `failure_told_iff`: a failed request is told of if and only if it can be read, or its formats are
  what fails.
* `repeated_parameter_in_plain_text`: a parameter that is given twice is no error of the gateway.
-/

namespace RecordService

/-! ## Error bodies -/

namespace ErrorBody

variable {codec : Codec}

theorem ofDocument_toDocument (b : ErrorBody) (n : Nat) :
    ofDocument codec (n + 1) b.toDocument = .ok b := rfl

/-- The body that tells of an error is read back. In MessagePack no text is longer than its header
can tell. -/
theorem read_write (b : ErrorBody) (h : (codec.write b.toDocument).length < 2 ^ 32) :
    codec.read (ofDocument codec) (codec.write b.toDocument) = .ok b := by
  have hlegible : codec.Legible b.toDocument := by
    cases codec with
    | json => exact ErrorBody.legible nofun nofun
    | messagePack =>
      have hprintable : MessagePack.Printable b.toDocument :=
        MessagePack.printable_object (by simpa using ⟨.text _, .text _, .bool _⟩)
      exact hprintable.legible h
  have hlimit : codec.nestingLimit = codec.nestingLimit - 1 + 1 := by cases codec <;> rfl
  exact Codec.read_legible hlegible (hlimit ▸ ofDocument_toDocument b _)

end ErrorBody

namespace Http

/-- A response tells of an error of the gateway: in the format that it names, its body spells out
the kind of the error, its text and whether a write is in doubt, and its status is the one of the
error. -/
def Response.TellsError (r : Response) : Prop :=
  ∃ (codec : Codec) (e : GatewayError),
    r.contentType = some codec.mediaType ∧ r.status = e.status ∧
      codec.read (ErrorBody.ofDocument codec) r.body = .ok ⟨e.kind.name, e.message, e.inDoubt⟩

theorem tellsError_failure (codec : Codec) (e : GatewayError)
    (h : (failure codec e).body.length < 2 ^ 32) : (failure codec e).TellsError :=
  ⟨codec, e, rfl, rfl, e.body.read_write h⟩

theorem not_tellsError_plain (status : Nat) (text : String) :
    ¬(Response.plain status text).TellsError := by
  rintro ⟨codec, e, hcodec, -, -⟩
  have hplain : some "text/plain; charset=utf-8" = some codec.mediaType := hcodec
  cases codec <;> exact absurd hplain (by decide)

/-! ## Endpoints -/

/-- An answer of the gateway: a success, or a failure that it tells of. -/
def Served (r : Response) : Prop := r.status < 400 ∨ ∃ codec e, r = failure codec e

section

variable {codec : Codec} {g : Gateway}

theorem served_bind {α : Type} (x : Except GatewayError α) {f : α → Except GatewayError Response}
    (h : ∀ a, Served (respond codec (f a))) : Served (respond codec (x >>= f)) := by
  cases x with
  | error e => exact .inr ⟨codec, e, rfl⟩
  | ok a => exact h a

theorem served_map {α : Type} (x : Except GatewayError α) {tell : α → Response}
    (h : ∀ a, (tell a).status < 400) : Served (respond codec (x.map tell)) := by
  cases x with
  | error e => exact .inr ⟨codec, e, rfl⟩
  | ok a => exact .inl (h a)

theorem served_orElse {α : Type} (x : Except GatewayError α)
    {f : α → Except GatewayError Response × Gateway}
    (h : ∀ a, Served (respond codec (f a).1)) : Served (respond codec (orElse g x f).1) := by
  cases x with
  | error e => exact .inr ⟨codec, e, rfl⟩
  | ok a => exact h a

end

/-! ## What a route reads -/

/-- The names in the path of a route. Records are named by the rest of the path, which the gateway
takes apart by itself. -/
def Route.names : Route → List String
  | .record _ | .operate _ | .cluster => []
  | .scan ns set | .execute ns set => ns :: set.toList
  | .taskStatus task => [task]
  | .info node => node.toList

/-- The parameters of a route. -/
def Route.parameters : Route → List String
  | .record _ | .operate _ => ["keytype", "filterexp", "bins", "ttl", "generation"]
  | .scan .. => ["maxRecords", "from", "filterexp", "bins"]
  | .execute .. => ["filterexp"]
  | .taskStatus _ | .info _ | .cluster => []

/-- Whether a route takes the body of a request. -/
def Route.TakesBody : Route → Method → Prop
  | .record _, m => m = .post ∨ m = .put ∨ m = .patch
  | .operate _, _ | .execute .., _ | .info _, _ => True
  | .scan .., _ | .taskStatus _, _ | .cluster, _ => False

/-- Each of the parameters is given once or not at all. -/
def GivenOnce (names : List String) (query : String) : Prop :=
  ∀ name ∈ names, ((Percent.fields query).map (·.1)).count name ≤ 1

/-- A request can be read as far as its route asks: the names in its path are text, no parameter of
the route is given twice, and its body is not too large. -/
structure Route.Reads (route : Route) (r : Request) : Prop where
  names : ∀ raw ∈ route.names, (segmentText? raw).isSome
  parameters : GivenOnce route.parameters r.query
  body : route.TakesBody r.method → r.body.length ≤ bodyLimit

theorem Route.reads_iff {route : Route} {r : Request} :
    route.Reads r ↔ (∀ raw ∈ route.names, (segmentText? raw).isSome) ∧
      GivenOnce route.parameters r.query ∧
      (route.TakesBody r.method → r.body.length ≤ bodyLimit) :=
  ⟨fun h => ⟨h.names, h.parameters, h.body⟩, fun h => ⟨h.1, h.2.1, h.2.2⟩⟩

theorem givenOnce_nil (query : String) : GivenOnce [] query := List.forall_mem_nil _

theorem knownFields?_isSome_iff {names : List String} {query : String} :
    (knownFields? names query).isSome ↔ GivenOnce names query := by
  have hfound : ((Percent.fields query).filter fun f => names.contains f.1).map (·.1) =
      ((Percent.fields query).map (·.1)).filter (names.contains ·) := by
    rw [List.filter_map]
    rfl
  have hsome : (knownFields? names query).isSome ↔
      (((Percent.fields query).map (·.1)).filter (names.contains ·)).Nodup := by
    unfold knownFields?
    simp only [hfound]
    split
    · exact iff_of_true rfl (by assumption)
    · exact iff_of_false nofun (by assumption)
  rw [hsome, List.nodup_iff_count]
  constructor
  · intro h name hname
    have hcount := h name
    rwa [List.count_filter (List.contains_iff_mem.mpr hname)] at hcount
  · intro h name
    by_cases hname : name ∈ names
    · rw [List.count_filter (List.contains_iff_mem.mpr hname)]
      exact h name hname
    · have hnot : name ∉ ((Percent.fields query).map (·.1)).filter (names.contains ·) := fun hmem =>
        hname (List.contains_iff_mem.mp (List.of_mem_filter hmem))
      rw [List.count_eq_zero_of_not_mem hnot]
      exact Nat.zero_le 1

/-! ## Reading in order -/

/-- Something that is done if a request can be read, with a good result, and is else refused in
plain text. -/
def Done {α : Type} (readable : Prop) (good : α → Prop) (x : Except Response α) : Prop :=
  (readable ∧ ∃ a, x = .ok a ∧ good a) ∨
    (¬readable ∧ ∃ status text, x = .error (.plain status text))

section

variable {α β : Type} {p p' : Prop} {x : Except Response α} {r : Request}

theorem Done.congr {good : α → Prop} (h : Done p good x) (hp : p ↔ p') : Done p' good x := by
  rwa [propext hp] at h

theorem done_ok {good : α → Prop} {a : α} (h : good a) : Done True good (.ok a) :=
  .inl ⟨trivial, a, rfl, h⟩

theorem Done.bind {good : β → Prop} {f : α → Except Response β}
    (hx : Done p (fun _ => True) x) (hf : ∀ a, Done p' good (f a)) :
    Done (p ∧ p') good (x >>= f) := by
  rcases hx with ⟨hp, a, rfl, -⟩ | ⟨hp, status, text, rfl⟩
  · rcases hf a with ⟨hp', b, hb, hgood⟩ | ⟨hp', status, text, hb⟩
    · exact .inl ⟨⟨hp, hp'⟩, b, hb, hgood⟩
    · exact .inr ⟨fun h => hp' h.2, status, text, hb⟩
  · exact .inr ⟨fun h => hp h.1, status, text, rfl⟩

theorem done_nameOf (raw : String) :
    Done ((segmentText? raw).isSome) (fun _ => True) (nameOf raw) := by
  unfold nameOf
  cases segmentText? raw with
  | none => exact .inr ⟨nofun, _, _, rfl⟩
  | some name => exact .inl ⟨rfl, name, rfl, trivial⟩

theorem done_nameOf? (raw : Option String) :
    Done (∀ name ∈ raw, (segmentText? name).isSome) (fun _ => True) (nameOf? raw) := by
  cases raw with
  | none => exact .inl ⟨nofun, none, rfl, trivial⟩
  | some raw =>
    show Done _ _ ((nameOf raw).map some)
    rcases done_nameOf raw with ⟨hname, name, h, -⟩ | ⟨hname, status, text, h⟩
    · exact .inl ⟨by simpa using hname, some name, by rw [h]; rfl, trivial⟩
    · exact .inr ⟨by simpa using hname, status, text, by rw [h]; rfl⟩

theorem done_parameters (read : String → Option α) (r : Request) :
    Done ((read r.query).isSome) (fun _ => True) (parameters read r) := by
  unfold parameters
  cases read r.query with
  | none => exact .inr ⟨nofun, _, _, rfl⟩
  | some q => exact .inl ⟨rfl, q, rfl, trivial⟩

theorem done_bodyOf (r : Request) :
    Done (r.body.length ≤ bodyLimit) (fun _ => True) (bodyOf r) := by
  unfold bodyOf
  split
  · exact .inl ⟨by assumption, _, rfl, trivial⟩
  · exact .inr ⟨by assumption, _, _, rfl⟩

end

/-! ## Requests -/

section

variable {g : Gateway} {now : Instant} {fresh : TaskId} {route : Route} {r : Request}

theorem done_withFormats {p : Prop} {go : Formats → Except Response (Response × Gateway)}
    (h : ∀ f, Done p (fun a => Served a.1) (go f)) :
    (∃ e, Formats.negotiate r = .error e ∧
        withFormats r go = .error (failure (fallbackFormat r) e)) ∨
      ∃ f, Formats.negotiate r = .ok f ∧ Done p (fun a => Served a.1) (withFormats r go) := by
  unfold withFormats
  cases Formats.negotiate r with
  | error e => exact .inl ⟨e, rfl, rfl⟩
  | ok f => exact .inr ⟨f, rfl, h f⟩

theorem done_parameters_once {α : Type} {read : String → Option α} {names : List String}
    {r : Request} (h : (read r.query).isSome = (knownFields? names r.query).isSome) :
    Done (GivenOnce names r.query) (fun _ => True) (parameters read r) :=
  (done_parameters read r).congr (by rw [h, knownFields?_isSome_iff])

/-- A request about one record reads its body only if that is to be written. -/
theorem done_recordCall {tail : String} (hmethod : r.method ∈ (Route.record tail).methods)
    (hhead : r.method ≠ .head) :
    (∃ e, Formats.negotiate r = .error e ∧
        recordCall g now tail r = .error (failure (fallbackFormat r) e)) ∨
      ∃ f, Formats.negotiate r = .ok f ∧
        Done ((Route.record tail).Reads r) (fun a => Served a.1) (recordCall g now tail r) := by
  have hreads : (Route.record tail).Reads r ↔ GivenOnce (Route.record tail).parameters r.query ∧
      ((Route.record tail).TakesBody r.method → r.body.length ≤ bodyLimit) := by
    simp [Route.reads_iff, Route.names]
  have hparameters : Done (GivenOnce (Route.record tail).parameters r.query) (fun _ => True)
      (parameters RecordQuery.ofQuery? r) := done_parameters_once Option.isSome_map
  refine done_withFormats fun f => (hparameters.bind fun q => ?_).congr hreads.symm
  cases hm : r.method with
  | get =>
    refine (done_ok ?_).congr (iff_of_true trivial ?_)
    · exact served_bind _ fun _ => served_bind _ fun _ => served_bind _ fun _ =>
        .inl (by decide : 200 < 400)
    · simp [Route.TakesBody]
  | delete =>
    refine (done_ok ?_).congr (iff_of_true trivial ?_)
    · exact served_orElse _ fun _ => served_map _ fun _ => (by decide : 204 < 400)
    · simp [Route.TakesBody]
  | post =>
    refine ((done_bodyOf r).bind fun body => done_ok ?_).congr ?_
    · exact served_orElse _ fun _ => served_map _ fun _ => (by decide : 201 < 400)
    · simp [Route.TakesBody]
  | put =>
    refine ((done_bodyOf r).bind fun body => done_ok ?_).congr ?_
    · exact served_orElse _ fun _ => served_map _ fun _ => (by decide : 204 < 400)
    · simp [Route.TakesBody]
  | patch =>
    refine ((done_bodyOf r).bind fun body => done_ok ?_).congr ?_
    · exact served_orElse _ fun _ => served_map _ fun _ => (by decide : 204 < 400)
    · simp [Route.TakesBody]
  | head => exact absurd hm hhead
  | other =>
    rw [hm] at hmethod
    exact absurd hmethod (by simp [Route.methods])

/-- A request under one of the methods of its route is answered by the gateway if it can be read,
and is else refused in plain text; but first its formats have to be found. -/
theorem done_call (hmethod : r.method ∈ route.methods) (hhead : r.method ≠ .head) :
    (∃ e, Formats.negotiate r = .error e ∧
        call g now fresh route r = .error (failure (fallbackFormat r) e)) ∨
      ∃ f, Formats.negotiate r = .ok f ∧
        Done (route.Reads r) (fun a => Served a.1) (call g now fresh route r) := by
  cases route with
  | record tail =>
    show (∃ e, _ ∧ (if r.method = .head then _ else recordCall g now tail r) = _) ∨
      ∃ f, _ ∧ Done _ _ (if r.method = .head then _ else recordCall g now tail r)
    rw [if_neg hhead]
    exact done_recordCall hmethod hhead
  | operate tail =>
    refine done_withFormats fun f => ((done_parameters_once Option.isSome_map).bind fun q =>
      (done_bodyOf r).bind fun body => done_ok ?_).congr ?_
    · exact served_orElse _ fun _ => served_map _ fun _ => (by decide : 200 < 400)
    · simp [Route.reads_iff, Route.names, Route.parameters, Route.TakesBody]
  | scan ns set =>
    refine done_withFormats fun f => ((done_nameOf ns).bind fun ns =>
      (done_nameOf? set).bind fun set =>
        (done_parameters_once Option.isSome_map).bind fun q => done_ok ?_).congr ?_
    · exact served_bind _ fun _ => served_bind _ fun _ => served_bind _ fun _ =>
        .inl (by decide : 200 < 400)
    · simp [Route.reads_iff, Route.names, Route.parameters, Route.TakesBody, and_assoc]
  | execute ns set =>
    refine done_withFormats fun f => ((done_nameOf ns).bind fun ns =>
      (done_nameOf? set).bind fun set =>
        (done_parameters_once Option.isSome_map).bind fun q =>
          (done_bodyOf r).bind fun body => done_ok ?_).congr ?_
    · exact served_orElse _ fun _ => served_map _ fun _ => (by decide : 202 < 400)
    · simp [Route.reads_iff, Route.names, Route.parameters, Route.TakesBody, and_assoc]
  | taskStatus task =>
    refine done_withFormats fun f => ((done_nameOf task).bind fun task => done_ok ?_).congr ?_
    · exact served_map _ fun _ => (by decide : 200 < 400)
    · simp [Route.reads_iff, Route.names, Route.parameters, Route.TakesBody, givenOnce_nil]
  | info node =>
    refine done_withFormats fun f => ((done_nameOf? node).bind fun node =>
      (done_bodyOf r).bind fun body => done_ok ?_).congr ?_
    · exact served_bind _ fun _ => served_bind _ fun _ => .inl (by decide : 200 < 400)
    · simp [Route.reads_iff, Route.names, Route.parameters, Route.TakesBody, givenOnce_nil]
  | cluster =>
    refine done_withFormats fun f => (done_ok ?_).congr ?_
    · exact served_map _ fun _ => (by decide : 200 < 400)
    · simp [Route.reads_iff, Route.names, Route.parameters, Route.TakesBody, givenOnce_nil]

end

/-- A failed request on its route is told of as an error of the gateway if and only if it can be
read as far as the route asks, or its formats are what fails. In particular a parameter that is
given once is reported, however malformed it is. -/
theorem failure_told_iff (g : Gateway) (now : Instant) (fresh : TaskId) {r : Request}
    {route : Route} (hroute : Route.ofPath? r.path = some route)
    (hmethod : r.method ∈ route.methods) (hhead : r.method ≠ .head)
    (hfailed : 400 ≤ (handle g now fresh r).1.status)
    (hlength : (handle g now fresh r).1.body.length < 2 ^ 32) :
    (handle g now fresh r).1.TellsError ↔
      route.Reads r ∨ ∃ e, Formats.negotiate r = .error e := by
  rw [handle_of_route hroute hmethod hhead] at hfailed hlength ⊢
  rcases done_call hmethod hhead with ⟨e, hformats, hcall⟩ |
    ⟨f, hformats, ⟨hreads, answer, hcall, hserved⟩ | ⟨hreads, status, text, hcall⟩⟩
  · rw [hcall] at hlength ⊢
    exact iff_of_true (tellsError_failure _ e hlength) (.inr ⟨e, hformats⟩)
  · rw [hcall] at hfailed hlength ⊢
    rcases hserved with hserved | ⟨codec, e, he⟩
    · exact absurd hfailed (Nat.not_le.mpr hserved)
    · simp only [answered, he] at hlength ⊢
      exact iff_of_true (tellsError_failure codec e hlength) (.inl hreads)
  · rw [hcall]
    refine iff_of_false (not_tellsError_plain status text) ?_
    rintro (h | ⟨e, h⟩)
    · exact hreads h
    · rw [hformats] at h
      cases h

/-- A deletion with a generation that is no number. -/
def malformedGeneration : Request :=
  { method := .delete, path := "/v1/kvs/test/s/k", query := "generation=x" }

/-- It is refused, and told of. -/
theorem failure_told_malformedGeneration :
    let response := (handle (.ofSettings {} {} {}) 0 ⟨1⟩ malformedGeneration).1
    400 ≤ response.status ∧ response.body.length < 2 ^ 32 ∧
      (Route.record "test/s/k").Reads malformedGeneration ∧ response.TellsError := by
  intro response
  have hroute : Route.ofPath? "/v1/kvs/test/s/k" = some (.record "test/s/k") := by decide +kernel
  have hfailed : 400 ≤ response.status := by decide +kernel
  have hlength : response.body.length < 2 ^ 32 := by decide +kernel
  have hreads : (Route.record "test/s/k").Reads malformedGeneration := by
    refine ⟨nofun, ?_, by simp [Route.TakesBody, malformedGeneration]⟩
    unfold GivenOnce
    decide +kernel
  exact ⟨hfailed, hlength, hreads,
    (failure_told_iff _ 0 ⟨1⟩ hroute (by decide) (by decide) hfailed hlength).mpr (.inl hreads)⟩

/-- A parameter that is given twice is refused in plain text. -/
theorem repeated_parameter_in_plain_text :
    let r : Request := { method := .get, path := "/v1/kvs/test/k", query := "ttl=1&ttl=2" }
    let response := (handle (.ofSettings {} {} {}) 0 ⟨1⟩ r).1
    Route.ofPath? r.path = some (.record "test/k") ∧ r.method ∈ (Route.record "test/k").methods ∧
      response.status = 400 ∧ ¬response.TellsError := by
  intro r response
  have hresponse : response = .plain 400 "a parameter of the query is given twice" := by
    decide +kernel
  refine ⟨by decide +kernel, by decide, by rw [hresponse]; rfl, ?_⟩
  rw [hresponse]
  exact not_tellsError_plain _ _

end Http
end RecordService
