import RecordService.Proofs.Http.ClientErrors
import RecordService.Proofs.Payload.Relayable
import RecordService.Proofs.Store.Values

/-!
# Whatever has come in can be sent on

No value that is read spells a tagged value, and no operation or job makes one that does. So in
every state that requests and background work lead to, whatever the gateway tells can be read back
by whoever gets it, and sent to it again.

* `Gateway.HandsOut`: what holds of the values in the records that a gateway hands out.
  `Gateway.handsOut`: it does if it holds of those in its store.
* `Response.ShowsOnly`: what holds of the values that a response shows.
* `Relaying`: an answer shows only relayable values, and there are no others behind it.
* `relaying_call`, `relaying_handle`: every answer does, if there have been no others before.
* `GatewayEvent.BringsOnlyRead`, `run_holds`: so it goes on.
* `relayed`: what is read, what is made of it and what is told of it are relayable.
-/

namespace RecordService

variable {P Q : Value → Prop}

/-! ## Values -/

theorem Value.relayable_of_isMade {v : Value} (h : v.isMade) : v.Relayable := by
  cases v with
  | int | float | string => exact relayable_leaf trivial
  | _ => cases h

theorem Value.untagged_of_isMade {v : Value} (h : v.isMade) : v.Untagged :=
  (relayable_of_isMade h).untagged

theorem Operation.putsOnly_of_holds {ops : List Operation}
    (h : ∀ op ∈ ops, ∀ v ∈ op.value?, P v) : PutsOnly P ops := fun _ v hop => h _ hop v rfl

/-! ## The gateway -/

namespace Gateway

/-- The values in the records that a gateway hands out have a property; in what operations report,
they have it if the values that are put do. -/
structure HandsOut (P : Value → Prop) (g : Gateway) : Prop where
  record : ∀ {now : Instant} {address : Address} {filter : Option Expression}
    {bins : Option (List String)} {r : Record},
    g.getRecord now address filter bins = .ok r → ∀ e ∈ r.bins, P e.2
  page : ∀ {now : Instant} {selection : Selection} {bins : Option (List String)}
    {size : Option Nat} {token : Option String} {page : ScanPage},
    g.scan now selection bins size token = .ok page → ∀ r ∈ page.records, ∀ e ∈ r.bins, P e.2
  operated : ∀ {now : Instant} {address : Address} {ops : List Operation} {p : WriteParameters}
    {r : Record}, Operation.PutsOnly P ops → (g.operate now address ops p).1 = .ok r →
    ∀ e ∈ r.bins, P e.2

variable {g : Gateway} {now : Instant}

theorem handsOut (h : g.store.Holds P) (hmade : ∀ v, v.isMade → P v) : g.HandsOut P where
  record hr := h.get (mapError_eq_ok_iff.mp hr)
  page hpage := by
    obtain ⟨size, -, hpage⟩ := bind_eq_ok_iff.mp (mapError_eq_ok_iff.mp hpage)
    exact h.scan (mapError_eq_ok_iff.mp hpage)
  operated hops hr := by
    unfold operate at hr
    split at hr
    · cases hr
    · exact h.operate_answer hmade hops (mapError_eq_ok_iff.mp hr)

theorem putRecord_holds (h : g.store.Holds P) (now : Instant) (address : Address) {bins : Bins}
    (hbins : ∀ e ∈ bins, P e.2) (options : WriteOptions) :
    (g.putRecord now address bins options).2.store.Holds P := by
  unfold putRecord
  split
  · exact h
  · exact h.put now address hbins options

theorem operate_holds (h : g.store.Holds P) (hmade : ∀ v, v.isMade → P v) (now : Instant)
    (address : Address) {ops : List Operation} (hops : Operation.PutsOnly P ops)
    (p : WriteParameters) : (g.operate now address ops p).2.store.Holds P := by
  unfold operate
  split
  · exact h
  · exact h.operate hmade hops now address _

theorem submit_holds (h : g.store.Holds P) (now : Instant) (fresh : TaskId) (selection : Selection)
    {ops : List Operation} (hops : Operation.PutsOnly P ops) :
    (g.submit now fresh selection ops).2.store.Holds P := by
  show (g.tasks.submit now fresh selection ops g.store).2.2.Holds P
  rcases g.tasks.submit_store now fresh selection ops g.store with hs | hs
  · rw [hs]
    exact h
  · rw [hs]
    exact h.startJob now hops

end Gateway

namespace Http

/-! ## Responses -/

/-- The response shows a record or a page, and the values in it have a property, or it shows no
records. -/
inductive Response.ShowsOnly (P : Value → Prop) : Response → Prop
  | record (codec : Codec) (r : Record) (h : ∀ e ∈ r.bins, P e.2) :
    ShowsOnly P (.ofDocument codec 200 ((RecordBody.ofRecord r).toDocument codec))
  | page (codec : Codec) (page : ScanPage) (h : ∀ r ∈ page.records, ∀ e ∈ r.bins, P e.2) :
    ShowsOnly P (.ofDocument codec 200 ((ScanBody.ofPage page).toDocument codec))
  | task (codec : Codec) (status : Nat) (task : Task) :
    ShowsOnly P (.ofDocument codec status (TaskBody.ofTask task).toDocument)
  | answers (codec : Codec) (answer : InfoAnswer) :
    ShowsOnly P (.ofDocument codec 200 answer.toDocument)
  | nodes (codec : Codec) (nodes : List String) :
    ShowsOnly P (.ofDocument codec 200 (ClusterBody.mk nodes).toDocument)
  | failure (codec : Codec) (e : GatewayError) : ShowsOnly P (failure codec e)
  | plain (status : Nat) (text : String) : ShowsOnly P (.plain status text)
  | bodiless {r : Response} (h : r.body = []) : ShowsOnly P r

theorem Response.ShowsOnly.mono {r : Response} (h : r.ShowsOnly P) (hPQ : ∀ v, P v → Q v) :
    r.ShowsOnly Q := by
  cases h with
  | record codec r h => exact .record codec r fun e he => hPQ _ (h e he)
  | page codec page h => exact .page codec page fun r hr e he => hPQ _ (h r hr e he)
  | task codec status task => exact .task codec status task
  | answers codec answer => exact .answers codec answer
  | nodes codec nodes => exact .nodes codec nodes
  | failure codec e => exact .failure codec e
  | plain status text => exact .plain status text
  | bodiless h => exact .bodiless h

/-- An answer shows only relayable values, and there are no others in the store afterwards. -/
def Relaying (a : Response × Gateway) : Prop :=
  a.1.ShowsOnly Value.Relayable ∧ a.2.store.Holds Value.Relayable

variable {codec : Codec} {g : Gateway} {now : Instant} {r : Request} {α : Type}

/-! ### What is read of a request -/

theorem read_of_decode {shape : Nat → Document → Except Fault α} {body : Bytes} {a : α}
    (h : decode codec shape body = .ok a) : codec.read shape body = .ok a :=
  mapError_eq_ok_iff.mp (error_or_eq_ok_iff.mp h).2

theorem decode_bins_relayable {body : Bytes} {bins : Bins}
    (h : decode codec Bins.ofDocument body = .ok bins) : ∀ e ∈ bins, e.2.Relayable :=
  Codec.read_bins_relayable (read_of_decode h)

theorem decode_operations_relayable {body : Bytes} {ops : OperationsBody}
    (h : decode codec (OperationsBody.ofDocument codec) body = .ok ops) :
    Operation.PutsOnly Value.Relayable ops.operations :=
  Operation.putsOnly_of_holds (Codec.read_operations_relayable (read_of_decode h))

theorem bins_of_writeInput {tail : String} {q : RecordQuery} {body : Bytes} {c : Codec}
    {address : Address} {p : WriteParameters} {bins : Bins}
    (h : writeInput c tail q body = .ok (address, p, bins)) :
    decode c Bins.ofDocument body = .ok bins := by
  obtain ⟨_, -, h⟩ := bind_eq_ok_iff.mp h
  obtain ⟨_, -, h⟩ := bind_eq_ok_iff.mp h
  obtain ⟨_, hbins, h⟩ := bind_eq_ok_iff.mp h
  cases h
  exact hbins

/-! ### Steps -/

theorem showsOnly_respond {x : Except GatewayError Response}
    (h : ∀ a, x = .ok a → a.ShowsOnly P) : (respond codec x).ShowsOnly P := by
  cases x with
  | error e => exact .failure codec e
  | ok a => exact h a rfl

section

variable (hg : g.store.Holds Value.Relayable)

include hg

theorem relaying_bind {x : Except Response α} {f : α → Except Response (Response × Gateway)}
    (hx : FailsOnly Response.IsPlain x) (hf : ∀ a, Relaying (answered g (f a))) :
    Relaying (answered g (x >>= f)) := by
  cases x with
  | error refusal =>
    obtain ⟨status, text, rfl⟩ := hx refusal rfl
    exact ⟨.plain status text, hg⟩
  | ok a => exact hf a

theorem relaying_withFormats {go : Formats → Except Response (Response × Gateway)}
    (h : ∀ f, Relaying (answered g (go f))) : Relaying (answered g (withFormats r go)) := by
  unfold withFormats
  cases Formats.negotiate r with
  | error e => exact ⟨.failure _ e, hg⟩
  | ok f => exact h f

theorem relaying_orElse {x : Except GatewayError α}
    {call : α → Except GatewayError Response × Gateway}
    (h : ∀ a, x = .ok a → Relaying (changed codec (call a))) :
    Relaying (changed codec (orElse g x call)) := by
  cases x with
  | error e => exact ⟨.failure codec e, hg⟩
  | ok a => exact h a rfl

end

theorem relaying_told {outcome : Except GatewayError α × Gateway} {tell : α → Response}
    (hg : outcome.2.store.Holds Value.Relayable)
    (htell : ∀ a, outcome.1 = .ok a → (tell a).ShowsOnly Value.Relayable) :
    Relaying (changed codec (outcome.1.map tell, outcome.2)) := by
  refine ⟨showsOnly_respond fun a ha => ?_, hg⟩
  obtain ⟨b, hb, rfl⟩ := map_eq_ok_iff.mp ha
  exact htell b hb

/-! ## Endpoints -/

theorem getRecord_showsOnly (h : g.HandsOut P) (now : Instant) (codec : Codec) (tail : String)
    (q : RecordQuery) : (respond codec (getRecord g now codec tail q)).ShowsOnly P := by
  refine showsOnly_respond fun a ha => ?_
  obtain ⟨address, -, ha⟩ := bind_eq_ok_iff.mp ha
  obtain ⟨filter, -, ha⟩ := bind_eq_ok_iff.mp ha
  obtain ⟨r, hr, ha⟩ := bind_eq_ok_iff.mp ha
  cases ha
  exact .record codec r (h.record hr)

theorem scan_showsOnly (h : g.HandsOut P) (now : Instant) (codec : Codec) (ns : String)
    (set : Option String) (q : ScanQuery) :
    (respond codec (scan g now codec ns set q)).ShowsOnly P := by
  refine showsOnly_respond fun a ha => ?_
  obtain ⟨selection, -, ha⟩ := bind_eq_ok_iff.mp ha
  obtain ⟨size, -, ha⟩ := bind_eq_ok_iff.mp ha
  obtain ⟨page, hpage, ha⟩ := bind_eq_ok_iff.mp ha
  cases ha
  exact .page codec page (h.page hpage)

theorem info_showsOnly (f : Formats) (node : Option String) (body : Bytes) :
    (respond codec (info g now f node body)).ShowsOnly P := by
  refine showsOnly_respond fun a ha => ?_
  obtain ⟨commands, -, ha⟩ := bind_eq_ok_iff.mp ha
  obtain ⟨answer, -, ha⟩ := bind_eq_ok_iff.mp ha
  cases ha
  exact .answers f.response answer

theorem cluster_showsOnly : (respond codec (cluster g codec)).ShowsOnly P := by
  refine showsOnly_respond fun a ha => ?_
  obtain ⟨names, -, rfl⟩ := map_eq_ok_iff.mp ha
  exact .nodes codec names

theorem headRecord_showsOnly (tail : String) (q : RecordQuery) :
    (headRecord g now tail q).ShowsOnly P := by
  unfold headRecord
  simp only []
  split <;> exact .bodiless rfl

section

variable (hg : g.store.Holds Value.Relayable) (tail : String) (q : RecordQuery) (body : Bytes)

include hg

/-- A write of bins that have been read. -/
theorem relaying_put {bins : Bins} {c : Codec} (hbins : decode c Bins.ofDocument body = .ok bins)
    (status : Nat) (address : Address) (options : WriteOptions) :
    Relaying (changed codec (written status (g.putRecord now address bins options))) :=
  relaying_told (g.putRecord_holds hg now address (decode_bins_relayable hbins) options)
    fun _ _ => .bodiless rfl

theorem relaying_createRecord (c : Codec) :
    Relaying (changed codec (createRecord g now c tail q body)) := by
  refine relaying_orElse hg fun a ha => ?_
  obtain ⟨address, -, ha⟩ := bind_eq_ok_iff.mp ha
  obtain ⟨ttl, -, ha⟩ := bind_eq_ok_iff.mp ha
  obtain ⟨bins, hbins, ha⟩ := bind_eq_ok_iff.mp ha
  cases ha
  exact relaying_put hg body hbins 201 address _

theorem relaying_replaceRecord (c : Codec) :
    Relaying (changed codec (replaceRecord g now c tail q body)) :=
  relaying_orElse hg fun ⟨address, _, _⟩ ha =>
    relaying_put hg body (bins_of_writeInput ha) 204 address _

theorem relaying_updateRecord (c : Codec) :
    Relaying (changed codec (updateRecord g now c tail q body)) :=
  relaying_orElse hg fun ⟨address, _, _⟩ ha =>
    relaying_put hg body (bins_of_writeInput ha) 204 address _

theorem relaying_deleteRecord : Relaying (changed codec (deleteRecord g now tail q)) :=
  relaying_orElse hg fun ⟨address, _⟩ _ =>
    relaying_told (hg.delete now address _) fun _ _ => .bodiless rfl

theorem relaying_operate (f : Formats) :
    Relaying (changed codec (operate g now f tail q body)) := by
  refine relaying_orElse hg fun a ha => ?_
  obtain ⟨address, -, ha⟩ := bind_eq_ok_iff.mp ha
  obtain ⟨write, -, ha⟩ := bind_eq_ok_iff.mp ha
  obtain ⟨ops, hops, ha⟩ := bind_eq_ok_iff.mp ha
  cases ha
  have hputs := decode_operations_relayable hops
  have hhands := g.handsOut hg fun _ => Value.relayable_of_isMade
  exact relaying_told (g.operate_holds hg (fun _ => Value.relayable_of_isMade) now address hputs _)
    fun r hr => .record f.response r (hhands.operated hputs hr)

theorem relaying_execute (fresh : TaskId) (f : Formats) (ns : String) (set : Option String)
    (q : ExecuteQuery) : Relaying (changed codec (execute g now fresh f ns set q body)) := by
  refine relaying_orElse hg fun a ha => ?_
  obtain ⟨selection, -, ha⟩ := bind_eq_ok_iff.mp ha
  obtain ⟨ops, hops, ha⟩ := bind_eq_ok_iff.mp ha
  cases ha
  exact relaying_told (g.submit_holds hg now fresh selection (decode_operations_relayable hops))
    fun task _ => .task f.response 202 task

end

/-! ## Requests -/

section

variable (hg : g.store.Holds Value.Relayable)

include hg

theorem relaying_recordCall (now : Instant) (tail : String) (r : Request) :
    Relaying (answered g (recordCall g now tail r)) := by
  refine relaying_withFormats hg fun f => relaying_bind hg (parameters_plain _ r) fun q => ?_
  have hhands := g.handsOut hg fun _ => Value.relayable_of_isMade
  cases r.method with
  | get => exact ⟨getRecord_showsOnly hhands now f.response tail q, hg⟩
  | delete => exact relaying_deleteRecord hg tail q
  | post =>
    exact relaying_bind hg (bodyOf_plain r) fun body => relaying_createRecord hg tail q body _
  | put =>
    exact relaying_bind hg (bodyOf_plain r) fun body => relaying_replaceRecord hg tail q body _
  | patch | head | other =>
    exact relaying_bind hg (bodyOf_plain r) fun body => relaying_updateRecord hg tail q body _

theorem relaying_call (now : Instant) (fresh : TaskId) (route : Route) (r : Request) :
    Relaying (answered g (call g now fresh route r)) := by
  have hhands := g.handsOut hg fun _ => Value.relayable_of_isMade
  cases route with
  | record tail =>
    unfold call
    by_cases hhead : r.method = .head
    · simp only [if_pos hhead]
      exact relaying_bind hg (parameters_plain _ r) fun q => ⟨headRecord_showsOnly tail q, hg⟩
    · simp only [if_neg hhead]
      exact relaying_recordCall hg now tail r
  | operate tail =>
    exact relaying_withFormats hg fun f => relaying_bind hg (parameters_plain _ r) fun q =>
      relaying_bind hg (bodyOf_plain r) fun body => relaying_operate hg tail q body f
  | scan ns set =>
    exact relaying_withFormats hg fun f => relaying_bind hg (nameOf_plain ns) fun ns =>
      relaying_bind hg (optionalName_plain set) fun set =>
        relaying_bind hg (parameters_plain _ r) fun q =>
          ⟨scan_showsOnly hhands now f.response ns set q, hg⟩
  | execute ns set =>
    exact relaying_withFormats hg fun f => relaying_bind hg (nameOf_plain ns) fun ns =>
      relaying_bind hg (optionalName_plain set) fun set =>
        relaying_bind hg (parameters_plain _ r) fun q =>
          relaying_bind hg (bodyOf_plain r) fun body => relaying_execute hg body fresh f ns set q
  | taskStatus task =>
    refine relaying_withFormats hg fun f => relaying_bind hg (nameOf_plain task) fun task => ?_
    show Relaying (changed f.response ((g.taskStatus now task).1.map _, (g.taskStatus now task).2))
    exact relaying_told hg fun task _ => .task f.response 200 task
  | info node =>
    exact relaying_withFormats hg fun f => relaying_bind hg (optionalName_plain node) fun node =>
      relaying_bind hg (bodyOf_plain r) fun body => ⟨info_showsOnly f node body, hg⟩
  | cluster => exact relaying_withFormats hg fun f => ⟨cluster_showsOnly, hg⟩

theorem relaying_onRoute (now : Instant) (fresh : TaskId) (route : Route) (r : Request) :
    Relaying (onRoute g now fresh route r) := by
  unfold onRoute
  split
  · exact relaying_call hg now fresh route r
  · exact ⟨.bodiless rfl, hg⟩

/-- A request to a store with relayable values only shows no others and stores no others. -/
theorem relaying_handle (now : Instant) (fresh : TaskId) (r : Request) :
    Relaying (handle g now fresh r) := by
  have hbody : ∀ a : Response × Gateway, Relaying a →
      Relaying (if r.method = .head then a.1.withoutBody else a.1, a.2) := by
    rintro a ⟨hshows, hstore⟩
    split
    · exact ⟨.bodiless rfl, hstore⟩
    · exact ⟨hshows, hstore⟩
  unfold handle
  cases Route.ofPath? r.path with
  | none => exact hbody (.bare 404, g) ⟨.bodiless rfl, hg⟩
  | some route => exact hbody _ (relaying_onRoute hg now fresh route r)

end

/-! ## Runs -/

namespace GatewayEvent

/-- No value comes with the event but in the body of a request. -/
def BringsOnlyRead : GatewayEvent → Prop
  | request .. | poll => True
  | store call => call.BringsNone

theorem serve_holds (hg : g.store.Holds Value.Relayable) {e : GatewayEvent}
    (he : e.BringsOnlyRead) (now : Instant) : (e.serve now g).2.store.Holds Value.Relayable := by
  cases e with
  | request fresh r => exact (relaying_handle hg now fresh r).2
  | poll => exact hg
  | store call => exact call.serve_holds hg (fun _ => Value.relayable_of_isMade) he now

end GatewayEvent

theorem run_holds (hg : g.store.Holds Value.Relayable) {events : List (Instant × GatewayEvent)}
    (he : ∀ x ∈ events, x.2.BringsOnlyRead) : (run g events).store.Holds Value.Relayable := by
  induction events generalizing g with
  | nil => exact hg
  | cons x rest ih =>
    obtain ⟨hx, hrest⟩ := List.forall_mem_cons.mp he
    exact ih (x.2.serve_holds hg hx x.1) hrest

/-- No value that is read as such, in bins or in operations spells a tagged value anywhere in it,
whatever the bytes. Operations on bins without such values leave and report none, and neither jobs
nor anything else that happens to a store bring one about. So in every state that a gateway without
records can come to by requests and by its background work, each value in its bins, each that it
hands out and each that a response shows can be sent in either format, and whoever reads it has
the same value, if it nests no deeper than readers follow. In JSON the digits of finite doubles have
to be read back and NaNs become one; in MessagePack no header has room for a length from `2 ^ 32`
on. -/
theorem relayed (codec : Codec) :
    (∀ b v, codec.readValue b = .ok v → v.Untagged) ∧
      (∀ b bins, codec.read Bins.ofDocument b = .ok bins → ∀ e ∈ bins, e.2.Untagged) ∧
      (∀ b body, codec.read (OperationsBody.ofDocument codec) b = .ok body →
        ∀ op ∈ body.operations, ∀ v ∈ op.value?, v.Untagged) ∧
      (∀ ops bins done, Operation.PutsOnly Value.Untagged ops → (∀ e ∈ bins, e.2.Untagged) →
        Operation.applyAll ops bins = .ok done →
          (∀ e ∈ done.bins, e.2.Untagged) ∧ ∀ e ∈ done.results, e.2.Untagged) ∧
      (∀ (s : Store) (now : Instant) (call : StoreCall), call.BringsNone →
        s.Holds Value.Untagged → (call.serve now s).2.Holds Value.Untagged) ∧
      ∀ settings limits tasks events, (∀ x ∈ events, x.2.BringsOnlyRead) →
        let g := run (.ofSettings settings limits tasks) events
        g.store.Each (fun _ r => ∀ e ∈ r.bins, e.2.Relays codec) ∧
          g.HandsOut (Value.Relays codec) ∧
          ∀ now fresh r, (handle g now fresh r).1.ShowsOnly (Value.Relays codec) := by
  have hmade : ∀ v : Value, v.isMade → v.Untagged := fun _ => Value.untagged_of_isMade
  refine ⟨fun _ _ h => (Codec.readValue_relayable h).untagged,
    fun _ _ h e he => (Codec.read_bins_relayable h e he).untagged,
    fun _ _ h op hop v hv => (Codec.read_operations_relayable h op hop v hv).untagged,
    fun _ _ _ => Operation.applyAll_holds hmade,
    fun _ now call hcall hs => call.serve_holds hs hmade hcall now, ?_⟩
  intro settings limits tasks events he g
  have hrelays : ∀ v : Value, v.Relayable → v.Relays codec := fun _ hv => hv.relays codec
  have hg : g.store.Holds Value.Relayable := run_holds (Store.Holds.empty settings _) he
  refine ⟨(hg.mono hrelays).records, ?_, fun now fresh r => ?_⟩
  · exact g.handsOut (hg.mono hrelays) fun v hv => hrelays v (Value.relayable_of_isMade hv)
  · exact (relaying_handle hg now fresh r).1.mono hrelays

/-- A tagged value that is spelled twice. The second body counts. -/
def taggedTwice : String := "\x7b\"$bytes\":\"Aw==\",\"$bytes\":\"AQ==\"\x7d"

/-- The creation of a record with that value in a list. -/
def listCreated : Request :=
  { method := .post, path := "/v1/kvs/test/AQEBAQEBAQEBAQEBAQEBAQEBAQE"
    query := "keytype=DIGEST"
    body := Bytes.utf8 ("\x7b\"n\":1,\"b\":[" ++ taggedTwice ++ "]\x7d") }

/-- A task that adds to one bin and puts another. -/
def operationsExecuted : Request :=
  { method := .post, path := "/v2/execute/scan/test"
    body := Bytes.utf8
      ("\x7b\"opsList\":[\x7b\"operationType\":\"ADD\",\"bin\":\"n\",\"incr\":1\x7d," ++
        "\x7b\"operationType\":\"PUT\",\"bin\":\"g\",\"value\":" ++ taggedTwice ++ "\x7d]\x7d") }

set_option maxRecDepth 10000 in
theorem read_operationsExecuted :
    Codec.read .json (OperationsBody.ofDocument .json) operationsExecuted.body =
      .ok ⟨[.add "n" (.int 1), .put "g" (.blob [1])]⟩ := rfl

/-- The record is created, and the task works on it until its end. -/
def createdAndChanged : List (Instant × GatewayEvent) :=
  [(0, .request ⟨1⟩ listCreated), (1, .request ⟨2⟩ operationsExecuted), (2, .store .dispatch),
    (3, .store (.stepJob 1)), (4, .store (.stepJob 1)), (5, .store (.stepJob 1)), (6, .poll)]

/-- A store with a job that waits. -/
def withWaitingJob : Store :=
  { Store.empty {} with
    pool := { queue := [⟨1, ⟨⟨"test", none, none⟩, [.put "b" (.blob [1])]⟩⟩] } }

/-- What is read is bytes, not a map that spells them. So are the values that the operations put and
report. The record is there in the end, and is shown in MessagePack as well. -/
theorem relayed_createdAndChanged :
    let bytes : Value := .blob [1]
    let ops : List Operation := [.add "n" (.int 1), .put "g" bytes]
    let bins : Bins := [("b", .list [bytes]), ("n", .int 1)]
    let g := run newGateway createdAndChanged
    let read : Request := { listCreated with method := .get }
    (Codec.readValue .json (Bytes.utf8 taggedTwice) = .ok bytes ∧ bytes.Untagged) ∧
      (Codec.read .json Bins.ofDocument listCreated.body = .ok bins ∧ ∀ e ∈ bins, e.2.Untagged) ∧
      (Codec.read .json (OperationsBody.ofDocument .json) operationsExecuted.body = .ok ⟨ops⟩ ∧
        ∀ op ∈ ops, ∀ v ∈ op.value?, v.Untagged) ∧
      (∃ done, Operation.applyAll ops bins = .ok done ∧ ∀ e ∈ done.bins, e.2.Untagged) ∧
      (StoreCall.dispatch.serve 0 withWaitingJob).2.Holds Value.Untagged ∧
      (∀ x ∈ createdAndChanged, x.2.BringsOnlyRead) ∧
      g.store.Each (fun _ r => ∀ e ∈ r.bins, e.2.Relays .messagePack) ∧
      (handle g 7 ⟨3⟩ read).1.status = 200 ∧
      (handle g 7 ⟨3⟩ read).1.ShowsOnly (Value.Relays .messagePack) := by
  intro bytes ops bins g read
  obtain ⟨hvalue, hbins, hops, happly, hcall, -⟩ := relayed .json
  obtain ⟨-, -, -, -, -, hrun⟩ := relayed .messagePack
  have hreadValue : Codec.readValue .json (Bytes.utf8 taggedTwice) = .ok bytes := rfl
  have hreadBins : Codec.read .json Bins.ofDocument listCreated.body = .ok bins := rfl
  have hreadOps : Codec.read .json (OperationsBody.ofDocument .json) operationsExecuted.body =
      .ok ⟨ops⟩ := read_operationsExecuted
  have huntagged : ∀ e ∈ bins, e.2.Untagged := hbins _ _ hreadBins
  have hputs : Operation.PutsOnly Value.Untagged ops :=
    Operation.putsOnly_of_holds (hops _ _ hreadOps)
  have hwaiting : withWaitingJob.Holds Value.Untagged := by
    refine ⟨(Store.empty_each {} _).of_spaces rfl, List.forall_mem_singleton.mpr ?_,
      List.forall_mem_nil _⟩
    refine Operation.putsOnly_of_holds (List.forall_mem_singleton.mpr ?_)
    rintro _ ⟨⟩
    exact hvalue _ _ hreadValue
  have hevents : ∀ x ∈ createdAndChanged, x.2.BringsOnlyRead := by
    simp [createdAndChanged, GatewayEvent.BringsOnlyRead, StoreCall.BringsNone]
  obtain ⟨heach, -, hshows⟩ := hrun {} {} {} createdAndChanged hevents
  exact ⟨⟨hreadValue, hvalue _ _ hreadValue⟩, ⟨hreadBins, huntagged⟩,
    ⟨hreadOps, hops _ _ hreadOps⟩, ⟨_, rfl, (happly ops bins _ hputs huntagged rfl).1⟩,
    hcall _ _ _ trivial hwaiting, hevents, heach, by decide +kernel, hshows _ _ _⟩

end Http
end RecordService
