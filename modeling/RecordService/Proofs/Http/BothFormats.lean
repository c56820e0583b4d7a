import RecordService.Proofs.Http.Replies

/-!
# One body in both formats

A body is sent to the same target once as JSON and once as MessagePack, before the same gateway.
What comes back tells the same, in the format that is due to each of the two requests, and the
gateways are alike afterwards.

* `Twins`: the two requests. `Suits`: the endpoints that take a body.
* `sameAnswer_bind`, `withFormats_same`, `sameAnswer_read`: what a request is refused for does not
  depend on the format of its body.
* `record_same`, `operateCall_same`, `executeCall_same`, `infoCall_same`: the endpoints.
* `formats_agree`: so the two requests have the same answer, if neither encoding or both of them
  are too large.
* `formats_differ_over_limit`: a body that is too large in one format alone.
-/

namespace RecordService.Http

variable {codec codec' : Codec} {g : Gateway} {now : Instant}

/-! ## Refusals -/

/-- The answer to a request that may have been refused. -/
def answered (g : Gateway) : Except Response (Response × Gateway) → Response × Gateway
  | .ok answer => answer
  | .error refusal => (refusal, g)

/-- A response in plain text. -/
def Response.IsPlain (r : Response) : Prop := ∃ status text, r = .plain status text

theorem parameters_plain {α : Type} (read : String → Option α) (r : Request) :
    FailsOnly Response.IsPlain (parameters read r) := by
  unfold parameters
  cases read r.query with
  | some q => exact failsOnly_ok q
  | none => exact failsOnly_error ⟨_, _, rfl⟩

theorem nameOf_plain (raw : String) : FailsOnly Response.IsPlain (nameOf raw) := by
  unfold nameOf
  cases segmentText? raw with
  | some name => exact failsOnly_ok name
  | none => exact failsOnly_error ⟨_, _, rfl⟩

theorem optionalName_plain (raw : Option String) :
    FailsOnly Response.IsPlain (nameOf? raw) := by
  cases raw with
  | none => exact failsOnly_ok none
  | some raw => exact (nameOf_plain raw).map

theorem bodyOf_plain (r : Request) : FailsOnly Response.IsPlain (bodyOf r) :=
  .ite (fun _ => failsOnly_ok _) fun _ => failsOnly_error ⟨_, _, rfl⟩

/-- A step that goes the same for both requests may refuse them in plain text. -/
theorem sameAnswer_bind {α : Type} {x : Except Response α}
    {go go' : α → Except Response (Response × Gateway)} (hx : FailsOnly Response.IsPlain x)
    (h : ∀ a, SameAnswer codec codec' (answered g (go a)) (answered g (go' a))) :
    SameAnswer codec codec' (answered g (x.bind go)) (answered g (x.bind go')) := by
  cases x with
  | error r =>
    obtain ⟨status, text, rfl⟩ := hx r rfl
    exact ⟨sameReply_plain status text, rfl⟩
  | ok a => exact h a

/-! ## Formats -/

/-- Whether an entry of an `Accept` header asks for anything that is served does not depend on the
format that a wildcard stands for. -/
theorem codecOfItem?_eq_none_congr {entry : String} (h : Codec.codecOfItem? codec entry = none) :
    Codec.codecOfItem? codec' entry = none := by
  unfold Codec.codecOfItem? at h ⊢
  simp only [] at h ⊢
  split at h
  · cases h
  · rename_i hname
    rwa [if_neg hname]

theorem ofAccept_cases (h : Option String) (codec codec' : Codec) :
    (∃ e, Codec.ofAccept h codec = .error e ∧ Codec.ofAccept h codec' = .error e) ∨
      ∃ c c', Codec.ofAccept h codec = .ok c ∧ Codec.ofAccept h codec' = .ok c' := by
  unfold Codec.ofAccept
  cases Codec.headerText? h with
  | none => exact .inr ⟨codec, codec', rfl, rfl⟩
  | some text =>
    simp only []
    generalize (Percent.splitAll ',' text.toList).map String.ofList = entries
    have hnone : entries.findSome? (Codec.codecOfItem? codec) = none ↔
        entries.findSome? (Codec.codecOfItem? codec') = none := by
      rw [List.findSome?_eq_none_iff, List.findSome?_eq_none_iff]
      exact forall₂_congr fun _ _ => ⟨codecOfItem?_eq_none_congr, codecOfItem?_eq_none_congr⟩
    cases hc : entries.findSome? (Codec.codecOfItem? codec) with
    | none =>
      rw [hnone.mp hc]
      exact .inl ⟨_, rfl, rfl⟩
    | some c =>
      cases hc' : entries.findSome? (Codec.codecOfItem? codec') with
      | none =>
        rw [hnone.mpr hc'] at hc
        cases hc
      | some c' => exact .inr ⟨c, c', rfl, rfl⟩

/-- The format that the response to a request is due in: the one that was negotiated, or if there is
none, the one in which that is told. -/
def responseFormat (r : Request) : Codec :=
  match Formats.negotiate r with
  | .ok formats => formats.response
  | .error _ => fallbackFormat r

/-- A body, sent to one target as JSON and as MessagePack. Of the other headers, those of the first
name `Accept` are the same, or there is none. -/
structure Twins (body : RequestBody) (r r' : Request) : Prop where
  method_eq : r.method = r'.method
  path_eq : r.path = r'.path
  query_eq : r.query = r'.query
  accept_eq : r.header? "accept" = r'.header? "accept"
  format : requestFormat r = .ok .json
  format' : requestFormat r' = .ok .messagePack
  body_eq : r.body = body.write .json
  body_eq' : r'.body = body.write .messagePack

variable {body : RequestBody} {r r' : Request}

theorem negotiate_cases (h : Twins body r r') :
    (∃ e, Formats.negotiate r = .error e ∧ Formats.negotiate r' = .error e) ∨
      ∃ c c', Formats.negotiate r = .ok ⟨.json, c⟩ ∧
        Formats.negotiate r' = .ok ⟨.messagePack, c'⟩ := by
  unfold Formats.negotiate
  rw [h.format, h.format']
  have haccept : headerText r "accept" = headerText r' "accept" := by
    unfold headerText
    rw [h.accept_eq]
  rw [haccept]
  cases headerText r' "accept" with
  | error e => exact .inl ⟨e, rfl, rfl⟩
  | ok text =>
    obtain ⟨e, he, he'⟩ | ⟨c, c', hc, hc'⟩ := ofAccept_cases text .json .messagePack
    · simp only [Except.bind, he, he']
      exact .inl ⟨.ofPayload e, rfl, rfl⟩
    · simp only [Except.bind, hc, hc']
      exact .inr ⟨c, c', rfl, rfl⟩

/-- Requests that go on the same once their formats are known have the same answer. -/
theorem withFormats_same (h : Twins body r r')
    {go go' : Formats → Except Response (Response × Gateway)}
    (hgo : ∀ c c', SameAnswer c c' (answered g (go ⟨.json, c⟩))
      (answered g (go' ⟨.messagePack, c'⟩))) :
    SameAnswer (responseFormat r) (responseFormat r') (answered g (withFormats r go))
      (answered g (withFormats r' go')) := by
  unfold responseFormat withFormats
  obtain ⟨e, he, he'⟩ | ⟨c, c', hc, hc'⟩ := negotiate_cases h
  · rw [he, he']
    exact ⟨sameReply_failure e, rfl⟩
  · rw [hc, hc']
    exact hgo c c'

/-! ## Requests -/

/-- The endpoints that take a body, each with what it takes. -/
inductive Suits : RequestBody → Method → Route → Prop
  | create (entries : Bins) (tail : String) : Suits (.bins entries) .post (.record tail)
  | replace (entries : Bins) (tail : String) : Suits (.bins entries) .put (.record tail)
  | update (entries : Bins) (tail : String) : Suits (.bins entries) .patch (.record tail)
  | operate (ops : List Operation) (tail : String) : Suits (.operations ops) .post (.operate tail)
  | execute (ops : List Operation) (ns : String) (set : Option String) :
    Suits (.operations ops) .post (.execute ns set)
  | info (commands : List String) (node : Option String) :
    Suits (.commands commands) .post (.info node)

/-- A request under a method of its route is answered as the call says, and in full unless it asks
for no body. -/
theorem handle_of_route {route : Route} {fresh : TaskId}
    (hroute : Route.ofPath? r.path = some route) (hmethod : r.method ∈ route.methods)
    (hhead : r.method ≠ .head) :
    handle g now fresh r = answered g (call g now fresh route r) := by
  unfold handle onRoute
  rw [hroute]
  simp only [List.contains_iff_mem.mpr hmethod, if_true, if_neg hhead]
  cases call g now fresh route r <;> rfl

theorem handle_of_suits {route : Route} {fresh : TaskId}
    (hroute : Route.ofPath? r.path = some route) (h : Suits body r.method route) :
    handle g now fresh r = answered g (call g now fresh route r) := by
  have hserved : r.method ∈ route.methods ∧ r.method ≠ .head := by
    generalize r.method = m at h
    cases h <;> exact ⟨by simp [Route.methods], nofun⟩
  exact handle_of_route hroute hserved.1 hserved.2

/-- What a write of bins under a method comes to. -/
def writeOf : Method → Gateway → Instant → Codec → String → RecordQuery → Bytes →
    Except GatewayError Response × Gateway
  | .post => createRecord
  | .put => replaceRecord
  | _ => updateRecord

theorem writeOf_same (m : Method) {c c' : Codec} {b b' : Bytes} {tail : String} {q : RecordQuery}
    {told told' : Bins} (h : Bins.mergeNaN told = Bins.mergeNaN told')
    (hd : decode c Bins.ofDocument b = .ok told) (hd' : decode c' Bins.ofDocument b' = .ok told') :
    SameAnswer codec codec' (changed codec (writeOf m g now c tail q b))
      (changed codec' (writeOf m g now c' tail q b')) := by
  unfold writeOf
  split
  · exact createRecord_same h hd hd'
  · exact replaceRecord_same h hd hd'
  · exact updateRecord_same h hd hd'

theorem call_record {tail : String} {fresh : TaskId}
    (hm : r.method = .post ∨ r.method = .put ∨ r.method = .patch) :
    call g now fresh (.record tail) r = withFormats r fun f =>
      (parameters RecordQuery.ofQuery? r).bind fun q => (bodyOf r).bind fun body =>
        .ok (changed f.response (writeOf r.method g now f.request tail q body)) := by
  obtain hm | hm | hm := hm <;> simp only [call, recordCall, hm] <;> rfl

/-- The answer to a request whose body is read. -/
theorem sameAnswer_read (h : Twins body r r') (hdoubles : body.ReadsBack)
    (hsize : r.body.length ≤ bodyLimit ↔ r'.body.length ≤ bodyLimit)
    {go go' : Bytes → Except Response (Response × Gateway)}
    (hgo : body.Readable .json → body.Readable .messagePack →
      SameAnswer codec codec' (answered g (go (body.write .json)))
        (answered g (go' (body.write .messagePack)))) :
    SameAnswer codec codec' (answered g ((bodyOf r).bind go))
      (answered g ((bodyOf r').bind go')) := by
  unfold bodyOf
  by_cases hfits : r.body.length ≤ bodyLimit
  · have hfits' := hsize.mp hfits
    rw [if_pos hfits, if_pos hfits', h.body_eq, h.body_eq']
    rw [h.body_eq', bodyLimit] at hfits'
    exact hgo (RequestBody.readable_json hdoubles)
      (RequestBody.readable_messagePack (Nat.lt_of_le_of_lt hfits' (by decide)))
  · rw [if_neg hfits, if_neg (mt hsize.mpr hfits)]
    exact ⟨sameReply_plain _ _, rfl⟩

theorem Twins.parameters_eq (h : Twins body r r') {α : Type} (read : String → Option α) :
    parameters read r' = parameters read r := by
  unfold parameters
  rw [h.query_eq]

section

variable {tail : String} {fresh : TaskId}
  (hsize : r.body.length ≤ bodyLimit ↔ r'.body.length ≤ bodyLimit)

include hsize

/-- Bins that are written to a record. -/
theorem record_same {entries : Bins} (hm : r.method = .post ∨ r.method = .put ∨ r.method = .patch)
    (hsound : (RequestBody.bins entries).Sound) (hdoubles : (RequestBody.bins entries).ReadsBack)
    (h : Twins (.bins entries) r r') :
    SameAnswer (responseFormat r) (responseFormat r')
      (answered g (call g now fresh (.record tail) r))
      (answered g (call g now fresh (.record tail) r')) := by
  rw [call_record hm, call_record (h.method_eq ▸ hm)]
  refine withFormats_same h fun c c' => ?_
  rw [h.parameters_eq, ← h.method_eq]
  refine sameAnswer_bind (parameters_plain _ r) fun q => ?_
  refine sameAnswer_read h hdoubles hsize fun hjson hmessagePack => ?_
  obtain ⟨told, hd, htold⟩ := decode_bins hsound hjson
  obtain ⟨told', hd', htold'⟩ := decode_bins hsound hmessagePack
  exact writeOf_same r.method (htold.trans htold'.symm) hd hd'

variable {ops : List Operation} (hsound : (RequestBody.operations ops).Sound)
  (hdoubles : (RequestBody.operations ops).ReadsBack) (h : Twins (.operations ops) r r')

include hsound hdoubles h

/-- Operations that are applied to a record. -/
theorem operateCall_same :
    SameAnswer (responseFormat r) (responseFormat r')
      (answered g (call g now fresh (.operate tail) r))
      (answered g (call g now fresh (.operate tail) r')) := by
  refine withFormats_same h fun c c' => ?_
  rw [h.parameters_eq]
  refine sameAnswer_bind (parameters_plain _ r) fun q => ?_
  refine sameAnswer_read h hdoubles hsize fun hjson hmessagePack => ?_
  obtain ⟨told, hd, htold⟩ := decode_operations hsound hjson
  obtain ⟨told', hd', htold'⟩ := decode_operations hsound hmessagePack
  exact operate_same ⟨.json, c⟩ ⟨.messagePack, c'⟩ (htold.trans htold'.symm) hd hd'

/-- Operations that are given to a task. -/
theorem executeCall_same {ns : String} {set : Option String} :
    SameAnswer (responseFormat r) (responseFormat r')
      (answered g (call g now fresh (.execute ns set) r))
      (answered g (call g now fresh (.execute ns set) r')) := by
  refine withFormats_same h fun c c' => ?_
  refine sameAnswer_bind (nameOf_plain ns) fun ns => ?_
  refine sameAnswer_bind (optionalName_plain set) fun set => ?_
  rw [h.parameters_eq]
  refine sameAnswer_bind (parameters_plain _ r) fun q => ?_
  refine sameAnswer_read h hdoubles hsize fun hjson hmessagePack => ?_
  obtain ⟨told, hd, htold⟩ := decode_operations hsound hjson
  obtain ⟨told', hd', htold'⟩ := decode_operations hsound hmessagePack
  exact execute_same ⟨.json, c⟩ ⟨.messagePack, c'⟩ (htold.trans htold'.symm) hd hd'

end

/-- Commands that a node is asked. -/
theorem infoCall_same {texts : List String} {node : Option String} {fresh : TaskId}
    (h : Twins (.commands texts) r r')
    (hsize : r.body.length ≤ bodyLimit ↔ r'.body.length ≤ bodyLimit) :
    SameAnswer (responseFormat r) (responseFormat r')
      (answered g (call g now fresh (.info node) r))
      (answered g (call g now fresh (.info node) r')) := by
  have hdoubles : (RequestBody.commands texts).ReadsBack := List.forall_mem_nil _
  refine withFormats_same h fun c c' => ?_
  refine sameAnswer_bind (optionalName_plain node) fun node => ?_
  refine sameAnswer_read h hdoubles hsize fun hjson hmessagePack => ?_
  exact info_same ⟨.json, c⟩ ⟨.messagePack, c'⟩ (decode_commands hjson)
    (decode_commands hmessagePack)

/-! ## Agreement -/

/-- A body that is sent to one target in both formats has the same answer: the same status, one
reply that each response tells in the format that is due to its request, and gateways that are alike
afterwards. It has to be too large in both formats or in neither. -/
theorem formats_agree {route : Route} (g : Gateway) (now : Instant) (fresh : TaskId)
    (hroute : Route.ofPath? r.path = some route) (hsuits : Suits body r.method route)
    (hsound : body.Sound) (hdoubles : body.ReadsBack) (h : Twins body r r')
    (hsize : r.body.length ≤ bodyLimit ↔ r'.body.length ≤ bodyLimit) :
    (handle g now fresh r).1.status = (handle g now fresh r').1.status ∧
      SameReply (responseFormat r) (responseFormat r') (handle g now fresh r).1
        (handle g now fresh r').1 ∧
      (handle g now fresh r).2.mergeNaN = (handle g now fresh r').2.mergeNaN := by
  have hanswer : SameAnswer (responseFormat r) (responseFormat r')
      (answered g (call g now fresh route r)) (answered g (call g now fresh route r')) := by
    have hsuits := hsuits
    generalize hm : r.method = m at hsuits
    cases hsuits with
    | create entries tail => exact record_same hsize (.inl hm) hsound hdoubles h
    | replace entries tail => exact record_same hsize (.inr (.inl hm)) hsound hdoubles h
    | update entries tail => exact record_same hsize (.inr (.inr hm)) hsound hdoubles h
    | operate ops tail => exact operateCall_same hsize hsound hdoubles h
    | execute ops ns set => exact executeCall_same hsize hsound hdoubles h
    | info commands node => exact infoCall_same h hsize
  rw [handle_of_suits hroute hsuits,
    handle_of_suits (h.path_eq ▸ hroute) (h.method_eq ▸ hsuits)]
  exact ⟨hanswer.1.status, hanswer.1, hanswer.2⟩

/-- A gateway before a store without records. -/
def newGateway : Gateway := .ofSettings {} {} {}

/-- A body that is posted to a path, with no header but the one that names its format. -/
def posted (path : String) (body : RequestBody) (codec : Codec) : Request :=
  { method := .post, path, headers := [("content-type", Bytes.utf8 codec.mediaType)]
    body := body.write codec }

theorem header?_posted (path : String) (body : RequestBody) (codec : Codec) (name : String) :
    (posted path body codec).header? name =
      if name = "content-type" then some (Bytes.utf8 codec.mediaType) else none := by
  have hlower : "content-type".toLower = "content-type" := by decide +kernel
  simp only [posted, Request.header?, List.find?_cons, hlower, List.find?_nil]
  by_cases hname : name = "content-type"
  · simp [hname]
  · simp [hname, beq_eq_false_iff_ne.mpr (Ne.symm hname)]

theorem requestFormat_posted (path : String) (body : RequestBody) (codec : Codec) :
    requestFormat (posted path body codec) = .ok codec := by
  have htype : Codec.ofContentType (some codec.mediaType) = .ok codec := by
    cases codec <;> decide +kernel
  have htext : (Bytes.utf8 codec.mediaType).all isHeaderText = true := by
    cases codec <;> decide +kernel
  rw [requestFormat, headerText, header?_posted, if_pos rfl]
  simp only [Bytes.text?_utf8, Option.filter, htext, if_true]
  show (Codec.ofContentType (some codec.mediaType)).mapError _ = _
  rw [htype]
  rfl

theorem twins_posted (path : String) (body : RequestBody) :
    Twins body (posted path body .json) (posted path body .messagePack) where
  method_eq := rfl
  path_eq := rfl
  query_eq := rfl
  accept_eq := by rw [header?_posted, header?_posted]; rfl
  format := requestFormat_posted path body .json
  format' := requestFormat_posted path body .messagePack
  body_eq := rfl
  body_eq' := rfl

/-- A NaN with other bits than the one that stands for all. -/
def otherNaN : Double := ⟨0x7FF8000000000001⟩

/-- Operations with two doubles, of which one is a NaN. -/
def twoDoubles : RequestBody :=
  .operations [.put "n" (.float otherNaN), .add "m" (.float Codec.oneAndHalf), .get]

theorem twoDoubles_sound : twoDoubles.Sound where
  sorted := nofun
  wellFormed := by
    refine List.forall_mem_cons.mpr ⟨?_, List.forall_mem_singleton.mpr ?_⟩
    · exact Value.wellFormed_leaf trivial
    · exact Value.wellFormed_leaf trivial
  untagged := by
    refine List.forall_mem_cons.mpr ⟨?_, List.forall_mem_singleton.mpr ?_⟩
    all_goals
      refine (Value.everywhere_leaf (v := .float _) trivial).mpr ?_
      rintro ⟨tag, -, text, h⟩
      cases h
  nesting_le := by
    intro codec
    refine List.forall_mem_cons.mpr ⟨?_, List.forall_mem_singleton.mpr ?_⟩
    · cases codec <;> decide
    · cases codec <;> decide

theorem twoDoubles_readsBack : twoDoubles.ReadsBack := by
  refine List.forall_mem_cons.mpr ⟨?_, List.forall_mem_singleton.mpr ?_⟩
  · rintro x ⟨⟩ hx
    exact absurd (by decide) hx
  · rintro x ⟨⟩ -
    exact Codec.readsBack_oneAndHalf

theorem formats_agree_twoDoubles :
    Route.ofPath? "/v1/operate/test/s/k" = some (.operate "test/s/k") ∧
      Suits twoDoubles .post (.operate "test/s/k") ∧ twoDoubles.Sound ∧ twoDoubles.ReadsBack ∧
      let r := posted "/v1/operate/test/s/k" twoDoubles .json
      let r' := posted "/v1/operate/test/s/k" twoDoubles .messagePack
      Twins twoDoubles r r' ∧ (r.body.length ≤ bodyLimit ↔ r'.body.length ≤ bodyLimit) ∧
      (handle newGateway 0 ⟨1⟩ r).1.status = (handle newGateway 0 ⟨1⟩ r').1.status ∧
      SameReply (responseFormat r) (responseFormat r') (handle newGateway 0 ⟨1⟩ r).1
        (handle newGateway 0 ⟨1⟩ r').1 ∧
      (handle newGateway 0 ⟨1⟩ r).2.mergeNaN = (handle newGateway 0 ⟨1⟩ r').2.mergeNaN := by
  have hroute : Route.ofPath? "/v1/operate/test/s/k" = some (.operate "test/s/k") := by
    decide +kernel
  have hsuits : Suits twoDoubles .post (.operate "test/s/k") := .operate _ _
  have htwins := twins_posted "/v1/operate/test/s/k" twoDoubles
  have hsize : (twoDoubles.write .json).length ≤ bodyLimit ↔
      (twoDoubles.write .messagePack).length ≤ bodyLimit :=
    iff_of_true (by decide +kernel) (by decide +kernel)
  exact ⟨hroute, hsuits, twoDoubles_sound, twoDoubles_readsBack, htwins, hsize,
    formats_agree newGateway 0 ⟨1⟩ hroute hsuits twoDoubles_sound twoDoubles_readsBack htwins hsize⟩

/-! ## A body that is too large in one format -/

/-- Bins with one list of nulls, of which each is one byte in MessagePack and four in JSON. -/
def nulls (n : Nat) : Bins := [("n", .list (List.replicate n .null))]

theorem toDocument_nulls (codec : Codec) (n : Nat) :
    (RequestBody.bins (nulls n)).toDocument codec =
      .map [(.text "n", .list (List.replicate n .null))] := by
  show Document.map [(_, .list (Value.itemDocuments codec (List.replicate n .null)))] = _
  rw [Value.itemDocuments_eq_map, List.map_replicate, Value.toDocument]

theorem le_length_json_nulls (n : Nat) :
    4 * n ≤ ((RequestBody.bins (nulls n)).write .json).length := by
  have hitems : 4 * n ≤ (Json.separated (Json.printItems (List.replicate n .null))).length := by
    induction n with
    | zero => exact Nat.zero_le _
    | succ n ih =>
      rw [List.replicate_succ, Json.printItems, Json.print_null]
      cases n with
      | zero => exact Nat.le_refl _
      | succ n =>
        rw [List.replicate_succ, Json.printItems] at ih ⊢
        show 4 * (n + 1 + 1) ≤ (_ ++ 0x2C :: Json.separated _ : Bytes).length
        simp only [List.length_append, List.length_cons, List.length_nil]
        omega
  rw [RequestBody.write, toDocument_nulls]
  simp only [Codec.write, Json.print, Json.printEntries, Json.separated, List.length_cons,
    List.length_append]
  omega

theorem length_messagePack_nulls_le (n : Nat) :
    ((RequestBody.bins (nulls n)).write .messagePack).length ≤ n + 8 := by
  have hitems : (MessagePack.printItems (List.replicate n .null)).length = n := by
    induction n with
    | zero => rfl
    | succ n ih =>
      rw [List.replicate_succ, MessagePack.printItems, MessagePack.print, List.length_append, ih]
      exact Nat.add_comm 1 n
  have hheader : (MessagePack.listHeader n).length ≤ 5 := by
    unfold MessagePack.listHeader MessagePack.wide
    repeat' split
    all_goals simp [Bytes.bigEndian]
  have hname : (Bytes.utf8 "n").length = 1 := by decide +kernel
  rw [RequestBody.write, toDocument_nulls]
  simp only [Codec.write, MessagePack.print, MessagePack.printEntries, List.length_append, hitems,
    List.length_replicate, hname, List.length_cons, List.length_nil, MessagePack.mapHeader,
    MessagePack.textHeader, Nat.reduceAdd, Nat.reduceLT, if_true]
  omega

theorem nulls_sound (n : Nat) : (RequestBody.bins (nulls n)).Sound where
  sorted := by
    rintro _ ⟨⟩
    exact List.pairwise_singleton _ _
  wellFormed := by
    refine List.forall_mem_singleton.mpr (Value.wellFormed_list.mpr fun v hv => ?_)
    rw [List.eq_of_mem_replicate hv]
    exact Value.wellFormed_leaf trivial
  untagged := by
    refine List.forall_mem_singleton.mpr (Value.everywhere_list.mpr ⟨?_, fun v hv => ?_⟩)
    · rintro ⟨tag, -, text, h⟩
      cases h
    · rw [List.eq_of_mem_replicate hv]
      refine (Value.everywhere_leaf (v := .null) trivial).mpr ?_
      rintro ⟨tag, -, text, h⟩
      cases h
  nesting_le := by
    intro codec
    have hlist : (Value.list (List.replicate n .null)).nesting codec ≤ 1 := by
      refine Value.nesting_list_le.mpr fun v hv => ?_
      rw [List.eq_of_mem_replicate hv]
      exact Nat.le_refl 0
    have hlimit : 1 + 1 ≤ codec.nestingLimit := by cases codec <;> decide
    exact List.forall_mem_singleton.mpr (Nat.le_trans (Nat.add_le_add_right hlist _) hlimit)

theorem nulls_readsBack (n : Nat) : (RequestBody.bins (nulls n)).ReadsBack := by
  refine List.forall_mem_singleton.mpr ?_
  intro x hx
  cases hx with
  | item hv hx =>
    rw [List.eq_of_mem_replicate hv] at hx
    cases hx

section

variable {entries : Bins} {fresh : TaskId}

theorem ofPath?_record : Route.ofPath? "/v1/kvs/test/s/k" = some (.record "test/s/k") := by
  decide +kernel

theorem negotiate_posted (path : String) (body : RequestBody) (codec : Codec) :
    Formats.negotiate (posted path body codec) = .ok ⟨codec, codec⟩ := by
  rw [Formats.negotiate, requestFormat_posted, headerText, header?_posted,
    if_neg (by decide : ¬"accept" = "content-type")]
  rfl

/-- Bins that are posted to a record come to a call with the default parameters. -/
theorem handle_posted (entries : Bins) (codec : Codec) (fresh : TaskId) :
    handle newGateway 0 fresh (posted "/v1/kvs/test/s/k" (.bins entries) codec) =
      answered newGateway ((bodyOf (posted "/v1/kvs/test/s/k" (.bins entries) codec)).bind fun b =>
        .ok (changed codec (createRecord newGateway 0 codec "test/s/k" {} b))) := by
  have hquery : RecordQuery.ofQuery? "" = some {} := by decide +kernel
  have hparameters :
      parameters RecordQuery.ofQuery? (posted "/v1/kvs/test/s/k" (.bins entries) codec) =
        .ok {} := by
    unfold parameters
    rw [show (posted "/v1/kvs/test/s/k" (.bins entries) codec).query = "" from rfl, hquery]
  rw [handle_of_suits (r := posted "/v1/kvs/test/s/k" (.bins entries) codec) ofPath?_record
    (.create entries "test/s/k"), call_record (.inl rfl), withFormats, negotiate_posted]
  simp only [hparameters]
  rfl

theorem status_of_too_large (h : bodyLimit < ((RequestBody.bins entries).write codec).length) :
    (handle newGateway 0 fresh (posted "/v1/kvs/test/s/k" (.bins entries) codec)).1.status =
      413 := by
  have hbody : bodyOf (posted "/v1/kvs/test/s/k" (.bins entries) codec) =
      .error (.plain 413 "the body is too large") := if_neg (Nat.not_le.mpr h)
  rw [handle_posted, hbody]
  rfl

theorem createRecord_newGateway {address : Address} {told : Bins} (hns : address.ns = "test")
    (hne : told ≠ []) : (newGateway.createRecord 0 address told none).1 = .ok () := by
  have haccess : newGateway.store.access = .ok false := by decide +kernel
  have hspace : newGateway.store.space address.ns = .ok [] := by
    rw [hns]
    rfl
  unfold Gateway.createRecord Gateway.putRecord
  rw [List.isEmpty_eq_false_iff.mpr hne, if_neg Bool.false_ne_true]
  unfold Gateway.ofStoreCall Store.put Store.write
  rw [haccess, hspace]
  simp only [Records.live?, Ordered.find?, Option.filter]
  rfl

theorem status_of_created (hsound : (RequestBody.bins entries).Sound)
    (hread : (RequestBody.bins entries).Readable codec) (hne : entries ≠ [])
    (hsize : ((RequestBody.bins entries).write codec).length ≤ bodyLimit) :
    (handle newGateway 0 fresh (posted "/v1/kvs/test/s/k" (.bins entries) codec)).1.status =
      201 := by
  let address : Address := ⟨"test", some "s", .string "k"⟩
  have haddress : RecordQuery.address {} "test/s/k" = .ok address := by decide +kernel
  have hbody : bodyOf (posted "/v1/kvs/test/s/k" (.bins entries) codec) =
      .ok ((RequestBody.bins entries).write codec) := if_pos hsize
  obtain ⟨told, hd, htold⟩ := decode_bins hsound hread
  have htoldne : told ≠ [] := by
    rintro rfl
    exact hne (List.map_eq_nil_iff.mp htold.symm)
  rw [handle_posted, hbody]
  show (respond codec (createRecord newGateway 0 codec "test/s/k" {}
    ((RequestBody.bins entries).write codec)).1).status = 201
  unfold createRecord
  rw [haddress, hd]
  show (respond codec ((newGateway.createRecord 0 address told none).1.map _)).status = 201
  rw [createRecord_newGateway rfl htoldne]
  rfl

end

/-- A list of 600000 nulls is created from MessagePack and refused as JSON, where it is longer than
a body may be. -/
theorem formats_differ_over_limit :
    let body : RequestBody := .bins (nulls 600000)
    let r := posted "/v1/kvs/test/s/k" body .json
    let r' := posted "/v1/kvs/test/s/k" body .messagePack
    Route.ofPath? "/v1/kvs/test/s/k" = some (.record "test/s/k") ∧
      Suits body .post (.record "test/s/k") ∧ body.Sound ∧ body.ReadsBack ∧ Twins body r r' ∧
      (handle newGateway 0 ⟨1⟩ r).1.status = 413 ∧
      (handle newGateway 0 ⟨1⟩ r').1.status = 201 := by
  have hjson : bodyLimit < ((RequestBody.bins (nulls 600000)).write .json).length :=
    Nat.lt_of_lt_of_le (by decide) (le_length_json_nulls 600000)
  have hmessagePack : ((RequestBody.bins (nulls 600000)).write .messagePack).length ≤ bodyLimit :=
    Nat.le_trans (length_messagePack_nulls_le 600000) (by decide)
  have hread : (RequestBody.bins (nulls 600000)).Readable .messagePack :=
    RequestBody.readable_messagePack (Nat.lt_of_le_of_lt hmessagePack (by decide))
  exact ⟨ofPath?_record, .create _ _, nulls_sound _, nulls_readsBack _, twins_posted _ _,
    status_of_too_large hjson,
    status_of_created (nulls_sound _) hread (List.cons_ne_nil _ _) hmessagePack⟩

end RecordService.Http
