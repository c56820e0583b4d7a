import RecordService.Http.Handler
import RecordService.Proofs.Gateway.NaN
import RecordService.Proofs.Payload.RequestBody

/-!
# Replies in either format

A call gets the bytes of its body in one format and answers in another. What it reads and what it
answers do not depend on the formats, up to the bits of NaNs.

* `Reply`: what a response tells, whatever its format.
* `SameReply`, `SameAnswer`: two responses that tell the same, each in a format of its own, and
  gateways that are alike behind them.
* `decode_bins`, `decode_operations`, `decode_commands`: what is read of a body.
* `createRecord_same`, `replaceRecord_same`, `updateRecord_same`, `operate_same`, `execute_same`,
  `info_same`: calls that read the same answer the same.
-/

namespace RecordService

/-- The body with one NaN in place of all. -/
def RecordBody.mergeNaN (b : RecordBody) : RecordBody := { b with bins := Bins.mergeNaN b.bins }

namespace Http

/-! ## Replies -/

/-- What the body of a response tells. -/
inductive Content
  | nothing
  /-- A text for people, which is in neither format. -/
  | text (s : String)
  | record (b : RecordBody)
  | task (b : TaskBody)
  | answers (a : InfoAnswer)
  | error (b : ErrorBody)

/-- What a response tells. -/
structure Reply where
  status : Nat
  content : Content

namespace Reply

/-- The response that tells a reply in a format. -/
def encode (codec : Codec) (reply : Reply) : Response :=
  match reply.content with
  | .nothing => .bare reply.status
  | .text s => .plain reply.status s
  | .record b => .ofDocument codec reply.status (b.toDocument codec)
  | .task b => .ofDocument codec reply.status b.toDocument
  | .answers a => .ofDocument codec reply.status a.toDocument
  | .error b => .ofDocument codec reply.status b.toDocument

/-- The reply with one NaN in place of all. -/
def mergeNaN (reply : Reply) : Reply :=
  match reply.content with
  | .record b => { reply with content := .record b.mergeNaN }
  | _ => reply

theorem status_encode (codec : Codec) (reply : Reply) :
    (reply.encode codec).status = reply.status := by
  obtain ⟨status, content⟩ := reply
  cases content <;> rfl

theorem status_mergeNaN (reply : Reply) : reply.mergeNaN.status = reply.status := by
  obtain ⟨status, content⟩ := reply
  cases content <;> rfl

end Reply

/-- The responses tell the same reply, up to the bits of NaNs, each in a format of its own. -/
def SameReply (codec codec' : Codec) (r r' : Response) : Prop :=
  ∃ a b : Reply, a.mergeNaN = b.mergeNaN ∧ r = a.encode codec ∧ r' = b.encode codec'

/-- The responses tell the same, and the gateways behind them are alike. -/
def SameAnswer (codec codec' : Codec) (a a' : Response × Gateway) : Prop :=
  SameReply codec codec' a.1 a'.1 ∧ a.2.mergeNaN = a'.2.mergeNaN

variable {codec codec' : Codec} {g : Gateway} {now : Instant}

theorem SameReply.status {r r' : Response} (h : SameReply codec codec' r r') :
    r.status = r'.status := by
  obtain ⟨a, b, hab, rfl, rfl⟩ := h
  rw [Reply.status_encode, Reply.status_encode, ← a.status_mergeNaN, hab, b.status_mergeNaN]

theorem SameReply.of_reply (reply : Reply) :
    SameReply codec codec' (reply.encode codec) (reply.encode codec') :=
  ⟨reply, reply, rfl, rfl, rfl⟩

theorem sameReply_plain (status : Nat) (text : String) :
    SameReply codec codec' (.plain status text) (.plain status text) :=
  .of_reply ⟨status, .text text⟩

theorem sameReply_failure (e : GatewayError) :
    SameReply codec codec' (failure codec e) (failure codec' e) :=
  .of_reply ⟨e.status, .error e.body⟩

/-! ## What is read of a body -/

section

variable {body : RequestBody}

theorem decode_write {α : Type} {shape : Nat → Document → Except Fault α} {a : α}
    (hread : body.Readable codec) (h : shape codec.nestingLimit (body.toDocument codec) = .ok a) :
    decode codec shape (body.write codec) = .ok a := by
  have hempty : (body.write codec).isEmpty = false :=
    List.isEmpty_eq_false_iff.mpr (body.write_ne_nil codec)
  rw [decode, hempty, if_neg Bool.false_ne_true, RequestBody.write, Codec.read_write hread, h]
  rfl

theorem decode_bins {entries : Bins} (hsound : (RequestBody.bins entries).Sound)
    (hread : (RequestBody.bins entries).Readable codec) :
    ∃ told, decode codec Bins.ofDocument ((RequestBody.bins entries).write codec) = .ok told ∧
      Bins.mergeNaN told = Bins.mergeNaN entries := by
  have hlimit : codec.nestingLimit = codec.nestingLimit - 1 + 1 := by cases codec <;> rfl
  have hvalues : ∀ e ∈ entries, e.2.Sound codec (codec.nestingLimit - 1) :=
    fun e he => hsound.value codec (List.mem_map_of_mem he)
  refine ⟨_, decode_write hread ?_, Bins.mergeNaN_told codec entries⟩
  rw [hlimit]
  exact Bins.ofDocument_toDocument (hsound.sorted entries rfl) hvalues

theorem decode_operations {ops : List Operation} (hsound : (RequestBody.operations ops).Sound)
    (hread : (RequestBody.operations ops).Readable codec) :
    ∃ told, decode codec (OperationsBody.ofDocument codec)
        ((RequestBody.operations ops).write codec) = .ok ⟨told⟩ ∧
      told.map Operation.mergeNaN = ops.map Operation.mergeNaN := by
  have hlimit : codec.nestingLimit = codec.nestingLimit - 3 + 3 := by cases codec <;> rfl
  have hvalues : ∀ op ∈ ops, ∀ v ∈ op.value?, v.Sound codec (codec.nestingLimit - 3) :=
    fun op hop v hv => hsound.value codec (List.mem_filterMap.mpr ⟨op, hop, hv⟩)
  refine ⟨_, decode_write hread ?_, Operation.mergeNaN_told codec ops⟩
  rw [hlimit]
  exact OperationsBody.ofDocument_toDocument hvalues

theorem decode_commands {texts : List String}
    (hread : (RequestBody.commands texts).Readable codec) :
    decode codec Codec.texts ((RequestBody.commands texts).write codec) = .ok texts := by
  refine decode_write hread ?_
  cases codec <;> exact Codec.texts_map texts

end

/-! ## Calls -/

section

variable {b b' : Bytes} {c c' : Codec} {tail : String} {q : RecordQuery}

theorem sameAnswer_error (e : GatewayError) :
    SameAnswer codec codec' (changed codec (.error e, g)) (changed codec' (.error e, g)) :=
  ⟨sameReply_failure e, rfl⟩

/-- Outcomes that a map does not tell apart are told by the same reply if those are that it does not
tell apart. -/
theorem sameReply_respond {α β : Type} {f : α → β} {x x' : Except GatewayError α}
    (h : x.map f = x'.map f) {tell tell' : α → Response}
    (htell : ∀ a b, f a = f b → SameReply codec codec' (tell a) (tell' b)) :
    SameReply codec codec' (respond codec (x.map tell)) (respond codec' (x'.map tell')) := by
  obtain ⟨e, rfl, rfl⟩ | ⟨a, b, rfl, rfl, hab⟩ := map_eq_map_cases h
  · exact sameReply_failure e
  · exact htell a b hab

theorem sameAnswer_written {o o' : Except GatewayError Unit × Gateway} (status : Nat)
    (h : o.1 = o'.1 ∧ o.2.mergeNaN = o'.2.mergeNaN) :
    SameAnswer codec codec' (changed codec (written status o))
      (changed codec' (written status o')) := by
  refine ⟨sameReply_respond (congrArg (Except.map id) h.1) fun _ _ _ => ?_, h.2⟩
  exact .of_reply ⟨status, .nothing⟩

theorem createRecord_same {told told' : Bins} (h : Bins.mergeNaN told = Bins.mergeNaN told')
    (hd : decode c Bins.ofDocument b = .ok told) (hd' : decode c' Bins.ofDocument b' = .ok told') :
    SameAnswer codec codec' (changed codec (createRecord g now c tail q b))
      (changed codec' (createRecord g now c' tail q b')) := by
  unfold createRecord
  rw [hd, hd']
  cases q.address tail with
  | error e => exact sameAnswer_error e
  | ok address =>
    cases q.timeToLive with
    | error e => exact sameAnswer_error e
    | ok ttl => exact sameAnswer_written 201 (Gateway.putRecord_congr h _)

/-- A write of bins to a record that is there is refused before its bins are looked at, or goes on
with them. -/
theorem writeInput_cases (tail : String) (q : RecordQuery) {told told' : Bins}
    (hd : decode c Bins.ofDocument b = .ok told)
    (hd' : decode c' Bins.ofDocument b' = .ok told') :
    (∃ e, writeInput c tail q b = .error e ∧ writeInput c' tail q b' = .error e) ∨
      ∃ address write, writeInput c tail q b = .ok (address, write, told) ∧
        writeInput c' tail q b' = .ok (address, write, told') := by
  unfold writeInput
  rw [hd, hd']
  cases q.address tail with
  | error e => exact .inl ⟨e, rfl, rfl⟩
  | ok address =>
    cases q.write with
    | error e => exact .inl ⟨e, rfl, rfl⟩
    | ok write => exact .inr ⟨address, write, rfl, rfl⟩

theorem replaceRecord_same {told told' : Bins} (h : Bins.mergeNaN told = Bins.mergeNaN told')
    (hd : decode c Bins.ofDocument b = .ok told) (hd' : decode c' Bins.ofDocument b' = .ok told') :
    SameAnswer codec codec' (changed codec (replaceRecord g now c tail q b))
      (changed codec' (replaceRecord g now c' tail q b')) := by
  unfold replaceRecord
  obtain ⟨e, hinput, hinput'⟩ | ⟨address, write, hinput, hinput'⟩ :=
    writeInput_cases tail q hd hd'
  · rw [hinput, hinput']
    exact sameAnswer_error e
  · rw [hinput, hinput']
    exact sameAnswer_written 204 (Gateway.putRecord_congr h _)

theorem updateRecord_same {told told' : Bins} (h : Bins.mergeNaN told = Bins.mergeNaN told')
    (hd : decode c Bins.ofDocument b = .ok told) (hd' : decode c' Bins.ofDocument b' = .ok told') :
    SameAnswer codec codec' (changed codec (updateRecord g now c tail q b))
      (changed codec' (updateRecord g now c' tail q b')) := by
  unfold updateRecord
  obtain ⟨e, hinput, hinput'⟩ | ⟨address, write, hinput, hinput'⟩ :=
    writeInput_cases tail q hd hd'
  · rw [hinput, hinput']
    exact sameAnswer_error e
  · rw [hinput, hinput']
    exact sameAnswer_written 204 (Gateway.putRecord_congr h _)

theorem operate_same (f f' : Formats) {told told' : List Operation}
    (h : told.map Operation.mergeNaN = told'.map Operation.mergeNaN)
    (hd : decode f.request (OperationsBody.ofDocument f.request) b = .ok ⟨told⟩)
    (hd' : decode f'.request (OperationsBody.ofDocument f'.request) b' = .ok ⟨told'⟩) :
    SameAnswer f.response f'.response (changed f.response (operate g now f tail q b))
      (changed f'.response (operate g now f' tail q b')) := by
  unfold operate
  rw [hd, hd']
  cases q.address tail with
  | error e => exact sameAnswer_error e
  | ok address =>
    cases q.write with
    | error e => exact sameAnswer_error e
    | ok write =>
      obtain ⟨hrecord, hg⟩ := g.operate_congr now address write h
      refine ⟨sameReply_respond hrecord fun record record' hsame => ?_, hg⟩
      exact ⟨⟨200, .record (.ofRecord record)⟩, ⟨200, .record (.ofRecord record')⟩,
        congrArg (fun record => Reply.mk 200 (.record (.ofRecord record))) hsame, rfl, rfl⟩

theorem execute_same (f f' : Formats) {told told' : List Operation} {fresh : TaskId} {ns : String}
    {set : Option String} {q : ExecuteQuery}
    (h : told.map Operation.mergeNaN = told'.map Operation.mergeNaN)
    (hd : decode f.request (OperationsBody.ofDocument f.request) b = .ok ⟨told⟩)
    (hd' : decode f'.request (OperationsBody.ofDocument f'.request) b' = .ok ⟨told'⟩) :
    SameAnswer f.response f'.response (changed f.response (execute g now fresh f ns set q b))
      (changed f'.response (execute g now fresh f' ns set q b')) := by
  unfold execute
  rw [hd, hd']
  cases selectionOf ns set q.filter with
  | error e => exact sameAnswer_error e
  | ok selection =>
    obtain ⟨htask, hg⟩ := g.submit_congr now fresh selection h
    refine ⟨sameReply_respond (congrArg (Except.map id) htask) fun task task' hsame => ?_, hg⟩
    obtain rfl : task = task' := hsame
    exact .of_reply ⟨202, .task (.ofTask task)⟩

theorem info_same (f f' : Formats) {node : Option String} {texts : List String}
    (hd : decode f.request Codec.texts b = .ok texts)
    (hd' : decode f'.request Codec.texts b' = .ok texts) :
    SameAnswer f.response f'.response (unchanged g f.response (info g now f node b))
      (unchanged g f'.response (info g now f' node b')) := by
  unfold info
  rw [hd, hd']
  refine ⟨?_, rfl⟩
  show SameReply _ _ (respond _ ((g.info now node texts).bind _))
    (respond _ ((g.info now node texts).bind _))
  cases g.info now node texts with
  | error e => exact sameReply_failure e
  | ok answer => exact .of_reply ⟨200, .answers answer⟩

end

end Http
end RecordService
