import RecordService.Gateway.Error
import RecordService.Http.Message

/-!
# The wire formats of a request

`Content-Type` names the format of the request body and `Accept` that of the response. Without
`Accept` the response is in the format of the request.

* `Formats.negotiate`: the formats of a request.
* `fallbackFormat`: the format of the error if there are none.
-/

namespace RecordService.Http

/-- The formats of a request and its response. -/
structure Formats where
  request : Codec
  response : Codec
  deriving DecidableEq, Repr

/-- Whether a byte may be part of a header that is read as text. -/
def isHeaderText (b : UInt8) : Bool := (0x20 ≤ b && b < 0x7f) || b == 0x09

/-- The text of a header, if the request has one. -/
def headerText (r : Request) (name : String) : Except GatewayError (Option String) :=
  match r.header? name with
  | none => .ok none
  | some b =>
    match (Bytes.text? b).filter fun _ => b.all isHeaderText with
    | some s => .ok (some s)
    | none => .error (.unsupportedMediaType ("non-ASCII " ++ name ++ " header"))

/-- The format of a request body. -/
def requestFormat (r : Request) : Except GatewayError Codec :=
  (headerText r "content-type").bind fun h => (Codec.ofContentType h).mapError .ofPayload

/-- The formats of a request. -/
def Formats.negotiate (r : Request) : Except GatewayError Formats :=
  (requestFormat r).bind fun request =>
    (headerText r "accept").bind fun h =>
      ((Codec.ofAccept h request).mapError .ofPayload).map fun response => ⟨request, response⟩

/-- The format of the error of a request without formats: that of its body, if that is known. -/
def fallbackFormat (r : Request) : Codec :=
  match requestFormat r with
  | .ok codec => codec
  | .error _ => .json

end RecordService.Http
