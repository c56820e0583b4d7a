import RecordService.Gateway.Answer
import RecordService.Http.Negotiation
import RecordService.Http.Parameters
import RecordService.Http.Route

/-!
# Requests to the gateway

`handle` answers a request and says what becomes of the gateway.

A request is looked at in a fixed order: its path and method, its formats, the names in the path,
the query, the size of the body, and last what these say. Where one of the first four cannot be
read at all the answer is in plain text. A failure of the gateway is told in the format of the
response; a failure to find the formats, in that of the body.
-/

namespace RecordService.Http

/-- The size in bytes that a body may have. -/
def bodyLimit : Nat := 2097152

/-- The response to a failed request. -/
def failure (codec : Codec) (e : GatewayError) : Response :=
  .ofDocument codec e.status e.body.toDocument

/-- The response to an outcome. -/
def respond (codec : Codec) : Except GatewayError Response → Response
  | .ok r => r
  | .error e => failure codec e

/-! ## What is read of a request, in order -/

/-- Goes on with the formats of a request. -/
def withFormats {α : Type} (r : Request) (go : Formats → Except Response α) : Except Response α :=
  match Formats.negotiate r with
  | .ok formats => go formats
  | .error e => .error (failure (fallbackFormat r) e)

/-- The name that a part of a path spells. -/
def nameOf (raw : String) : Except Response String :=
  match segmentText? raw with
  | some name => .ok name
  | none => .error (.plain 400 "the path is not valid UTF-8")

/-- The name that an optional part of a path spells. -/
def nameOf? : Option String → Except Response (Option String)
  | none => .ok none
  | some raw => (nameOf raw).map some

/-- The parameters in a query. -/
def parameters {α : Type} (read : String → Option α) (r : Request) : Except Response α :=
  match read r.query with
  | some q => .ok q
  | none => .error (.plain 400 "a parameter of the query is given twice")

/-- The body of a request, if it is not too large. -/
def bodyOf (r : Request) : Except Response Bytes :=
  if r.body.length ≤ bodyLimit then .ok r.body
  else .error (.plain 413 "the body is too large")

/-- What a body spells out. -/
def decode {α : Type} (codec : Codec) (shape : Nat → Document → Except Fault α) (body : Bytes) :
    Except GatewayError α :=
  if body.isEmpty then .error (.invalidPayload "request body is empty")
  else (codec.read shape body).mapError .ofPayload

/-! ## Answers -/

/-- The bare response to a write. -/
def written (status : Nat) (outcome : Except GatewayError Unit × Gateway) :
    Except GatewayError Response × Gateway :=
  (outcome.1.map fun _ => .bare status, outcome.2)

/-- The outcome of a call that came to nothing before the gateway was asked. -/
def orElse {α β : Type} (g : Gateway) (input : Except GatewayError α)
    (call : α → Except GatewayError β × Gateway) : Except GatewayError β × Gateway :=
  match input with
  | .ok a => call a
  | .error e => (.error e, g)

section

variable (g : Gateway) (now : Instant)

/-- Reads a record. -/
def getRecord (codec : Codec) (tail : String) (q : RecordQuery) : Except GatewayError Response := do
  let address ← q.address tail
  let filter ← filterOf q.filter
  let record ← g.getRecord now address filter (binNames q.bins)
  pure (.ofDocument codec 200 ((RecordBody.ofRecord record).toDocument codec))

/-- Tells by its status alone whether there is a record. -/
def headRecord (tail : String) (q : RecordQuery) : Response :=
  let found : Except GatewayError Unit := do
    let address ← q.address tail
    let filter ← filterOf q.filter
    g.recordExists now address filter
  match found with
  | .ok () => .bare 200
  | .error e => .bare e.status

/-- Creates a record. -/
def createRecord (codec : Codec) (tail : String) (q : RecordQuery) (body : Bytes) :
    Except GatewayError Response × Gateway :=
  let input : Except GatewayError (Address × Option UInt32 × Bins) := do
    let address ← q.address tail
    let ttl ← q.timeToLive
    let bins ← decode codec Bins.ofDocument body
    pure (address, ttl, bins)
  orElse g input fun (address, ttl, bins) => written 201 (g.createRecord now address bins ttl)

/-- What a write of bins to a record that is there says. -/
def writeInput (codec : Codec) (tail : String) (q : RecordQuery) (body : Bytes) :
    Except GatewayError (Address × WriteParameters × Bins) := do
  let address ← q.address tail
  let write ← q.write
  let bins ← decode codec Bins.ofDocument body
  pure (address, write, bins)

/-- Replaces a record. -/
def replaceRecord (codec : Codec) (tail : String) (q : RecordQuery) (body : Bytes) :
    Except GatewayError Response × Gateway :=
  orElse g (writeInput codec tail q body) fun (address, write, bins) =>
    written 204 (g.replaceRecord now address bins write)

/-- Stores bins into a record. -/
def updateRecord (codec : Codec) (tail : String) (q : RecordQuery) (body : Bytes) :
    Except GatewayError Response × Gateway :=
  orElse g (writeInput codec tail q body) fun (address, write, bins) =>
    written 204 (g.updateRecord now address bins write)

/-- Deletes a record. -/
def deleteRecord (tail : String) (q : RecordQuery) : Except GatewayError Response × Gateway :=
  let input : Except GatewayError (Address × WriteParameters) := do
    let address ← q.address tail
    pure (address, ← q.write)
  orElse g input fun (address, write) =>
    written 204 (g.deleteRecord now address write.generation)

/-- Applies operations to a record. -/
def operate (formats : Formats) (tail : String) (q : RecordQuery) (body : Bytes) :
    Except GatewayError Response × Gateway :=
  let input : Except GatewayError (Address × WriteParameters × OperationsBody) := do
    let address ← q.address tail
    let write ← q.write
    let ops ← decode formats.request (OperationsBody.ofDocument formats.request) body
    pure (address, write, ops)
  orElse g input fun (address, write, ops) =>
    let (record, g) := g.operate now address ops.operations write
    let codec := formats.response
    (record.map fun record =>
      .ofDocument codec 200 ((RecordBody.ofRecord record).toDocument codec), g)

/-- Reads a page of records. -/
def scan (codec : Codec) (ns : String) (set : Option String) (q : ScanQuery) :
    Except GatewayError Response := do
  let selection ← selectionOf ns set q.filter
  let size ← q.size
  let page ← g.scan now selection (binNames q.bins) size q.token
  pure (.ofDocument codec 200 ((ScanBody.ofPage page).toDocument codec))

/-- Submits a background task. -/
def execute (fresh : TaskId) (formats : Formats) (ns : String) (set : Option String)
    (q : ExecuteQuery) (body : Bytes) : Except GatewayError Response × Gateway :=
  let input : Except GatewayError (Selection × OperationsBody) := do
    let selection ← selectionOf ns set q.filter
    let ops ← decode formats.request (OperationsBody.ofDocument formats.request) body
    pure (selection, ops)
  orElse g input fun (selection, ops) =>
    let (task, g) := g.submit now fresh selection ops.operations
    (task.map fun task =>
      .ofDocument formats.response 202 (TaskBody.ofTask task).toDocument, g)

/-- Tells of a task. -/
def taskStatus (codec : Codec) (task : String) : Except GatewayError Response × Gateway :=
  let (task, g) := g.taskStatus now task
  (task.map fun task => .ofDocument codec 200 (TaskBody.ofTask task).toDocument, g)

/-- Asks a node. -/
def info (formats : Formats) (node : Option String) (body : Bytes) :
    Except GatewayError Response := do
  let commands ← decode formats.request Codec.texts body
  let answer ← g.info now node commands
  pure (.ofDocument formats.response 200 answer.toDocument)

/-- Tells of the nodes. -/
def cluster (codec : Codec) : Except GatewayError Response :=
  g.nodeNames.map fun nodes => .ofDocument codec 200 (ClusterBody.mk nodes).toDocument

end

/-! ## Requests -/

/-- The answer of a call that changes nothing. -/
def unchanged (g : Gateway) (codec : Codec) (outcome : Except GatewayError Response) :
    Response × Gateway :=
  (respond codec outcome, g)

/-- The answer of a call that may change the gateway. -/
def changed (codec : Codec) (outcome : Except GatewayError Response × Gateway) :
    Response × Gateway :=
  (respond codec outcome.1, outcome.2)

/-- The answer to a request about one record under any method but `HEAD`. -/
def recordCall (g : Gateway) (now : Instant) (tail : String) (r : Request) :
    Except Response (Response × Gateway) :=
  withFormats r fun f => do
    let q ← parameters RecordQuery.ofQuery? r
    match r.method with
    | .get => pure (unchanged g f.response (getRecord g now f.response tail q))
    | .delete => pure (changed f.response (deleteRecord g now tail q))
    | _ =>
      let body ← bodyOf r
      let call := match r.method with
        | .post => createRecord
        | .put => replaceRecord
        | _ => updateRecord
      pure (changed f.response (call g now f.request tail q body))

/-- The answer to a request on its route. The method is one of the route's. -/
def call (g : Gateway) (now : Instant) (fresh : TaskId) (route : Route) (r : Request) :
    Except Response (Response × Gateway) :=
  match route with
  | .record tail =>
    if r.method = .head then do
      let q ← parameters RecordQuery.ofQuery? r
      pure (headRecord g now tail q, g)
    else recordCall g now tail r
  | .operate tail =>
    withFormats r fun f => do
      let q ← parameters RecordQuery.ofQuery? r
      let body ← bodyOf r
      pure (changed f.response (operate g now f tail q body))
  | .scan ns set =>
    withFormats r fun f => do
      let ns ← nameOf ns
      let set ← nameOf? set
      let q ← parameters ScanQuery.ofQuery? r
      pure (unchanged g f.response (scan g now f.response ns set q))
  | .execute ns set =>
    withFormats r fun f => do
      let ns ← nameOf ns
      let set ← nameOf? set
      let q ← parameters ExecuteQuery.ofQuery? r
      let body ← bodyOf r
      pure (changed f.response (execute g now fresh f ns set q body))
  | .taskStatus task =>
    withFormats r fun f => do
      let task ← nameOf task
      pure (changed f.response (taskStatus g now f.response task))
  | .info node =>
    withFormats r fun f => do
      let node ← nameOf? node
      let body ← bodyOf r
      pure (unchanged g f.response (info g now f node body))
  | .cluster => withFormats r fun f => pure (unchanged g f.response (cluster g f.response))

/-- The answer to a request on its route, and the gateway afterwards. -/
def onRoute (g : Gateway) (now : Instant) (fresh : TaskId) (route : Route) (r : Request) :
    Response × Gateway :=
  if route.methods.contains r.method then
    match call g now fresh route r with
    | .ok answer => answer
    | .error refusal => (refusal, g)
  else ({ status := 405, allow := some route.allow }, g)

/-- The answer to a request, and the gateway afterwards. A task that the request submits gets the
fresh name. -/
def handle (g : Gateway) (now : Instant) (fresh : TaskId) (r : Request) : Response × Gateway :=
  let (response, g) := match Route.ofPath? r.path with
    | some route => onRoute g now fresh route r
    | none => (.bare 404, g)
  (if r.method = .head then response.withoutBody else response, g)

end RecordService.Http
