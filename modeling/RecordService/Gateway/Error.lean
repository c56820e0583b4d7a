import RecordService.Filter.Token
import RecordService.Gateway.Scan
import RecordService.Payload.Body
import RecordService.Record.Path
import RecordService.Task.Registry

/-!
# Errors of the gateway

Every failure of a request is a `GatewayError`. Its kind and its status tell a client what to make
of it; only a timeout of the store can leave open whether a write was applied.

* `ErrorKind`, `GatewayError.kind`, `GatewayError.status`: the classification.
* `GatewayError.ofStore`, `ofKey`, `ofFilter`, `ofPayload`, `ofScan`, `ofTask`: what the errors of
  the parts become. A record that a filter hides is as if it were not there.
* `GatewayError.body`: the body that tells of an error.
-/

namespace RecordService

/-- The kinds of errors. -/
inductive ErrorKind
  /-- The request is wrong, and would fail again unchanged. -/
  | clientError
  | notFound
  /-- The record is not as the request expects. -/
  | conflict
  /-- The store failed or could not be reached. -/
  | storeFailure
  | overloaded
  | internal
  deriving DecidableEq, Repr

/-- The name of a kind. -/
def ErrorKind.name : ErrorKind → String
  | .clientError => "ClientError"
  | .notFound => "NotFound"
  | .conflict => "Conflict"
  | .storeFailure => "StoreFailure"
  | .overloaded => "Overloaded"
  | .internal => "Internal"

/-- Why a request fails. -/
inductive GatewayError
  | invalidKey (reason : String)
  | invalidFilter (reason : String)
  | invalidPayload (reason : String)
  | unsupportedMediaType (mediaType : String)
  | invalidRequest (reason : String)
  | namespaceNotFound (ns : String)
  | recordNotFound
  | taskNotFound (task : String)
  | nodeNotFound (node : String)
  | recordExists
  | generationMismatch (expected actual : UInt32)
  | storeUnavailable (reason : String)
  | storeTimeout (inDoubt : Bool)
  | scanIncomplete (reason : String) (timedOut : Bool)
  | storeFailure (reason : String)
  | overloaded (reason : String)
  | internal (reason : String)
  deriving DecidableEq, Repr

namespace GatewayError

/-- The text of an error. -/
def message : GatewayError → String
  | invalidKey reason => "invalid key: " ++ reason
  | invalidFilter reason => "invalid filter: " ++ reason
  | invalidPayload reason => "invalid payload: " ++ reason
  | unsupportedMediaType mediaType => "unsupported media type: " ++ mediaType
  | invalidRequest reason => "invalid request: " ++ reason
  | namespaceNotFound ns => "namespace not found: " ++ ns
  | recordNotFound => "record not found"
  | taskNotFound task => "task not found: " ++ task
  | nodeNotFound node => "node not found: " ++ node
  | recordExists => "record already exists"
  | generationMismatch expected actual => (StoreError.generationMismatch expected actual).message
  | storeUnavailable reason => "store unavailable: " ++ reason
  | storeTimeout _ => "store timeout"
  | scanIncomplete reason _ => "scan incomplete: " ++ reason
  | storeFailure reason => "store failure: " ++ reason
  | overloaded reason => "overloaded: " ++ reason
  | internal reason => "internal error: " ++ reason

/-- The kind of an error. -/
def kind : GatewayError → ErrorKind
  | invalidKey _ | invalidFilter _ | invalidPayload _ | unsupportedMediaType _ | invalidRequest _ =>
    .clientError
  | namespaceNotFound _ | recordNotFound | taskNotFound _ | nodeNotFound _ => .notFound
  | recordExists | generationMismatch .. => .conflict
  | storeUnavailable _ | storeTimeout _ | scanIncomplete .. | storeFailure _ => .storeFailure
  | overloaded _ => .overloaded
  | internal _ => .internal

/-- Whether a write may have been applied all the same. -/
def inDoubt : GatewayError → Bool
  | storeTimeout doubt => doubt
  | _ => false

/-- Whether the store did not answer in time. -/
def isTimeout : GatewayError → Bool
  | storeTimeout _ => true
  | scanIncomplete _ timedOut => timedOut
  | _ => false

/-- The status of the response to a failed request. -/
def status (e : GatewayError) : Nat :=
  match e.kind with
  | .clientError => 400
  | .notFound => 404
  | .conflict => 409
  | .overloaded => 503
  | .storeFailure =>
    match e with
    | storeUnavailable _ => 503
    | e => if e.isTimeout then 504 else 500
  | .internal => 500

/-- The body that tells of an error. -/
def body (e : GatewayError) : ErrorBody := ⟨e.kind.name, e.message, e.inDoubt⟩

/-! ## Errors of the parts -/

/-- What an error of the store becomes. -/
def ofStore : StoreError → GatewayError
  | .namespaceNotFound ns => namespaceNotFound ns
  | .recordNotFound | .filteredOut => recordNotFound
  | .nodeNotFound node => nodeNotFound node
  | .jobNotFound job => storeFailure ("store lost job " ++ toString job)
  | .recordExists => recordExists
  | .generationMismatch expected actual => generationMismatch expected actual
  | .invalidExpression reason => invalidFilter reason
  | .invalidResumeToken reason => invalidRequest ("invalid scan token: " ++ reason)
  | .parameter reason => invalidRequest reason
  | .timeout doubt => storeTimeout doubt
  | .unavailable reason => storeUnavailable reason
  | .server reason => storeFailure reason

/-- What an error of a record path becomes. -/
def ofKey (e : KeyError) : GatewayError := invalidKey e.message

/-- What an error of a filter becomes. -/
def ofFilter : FilterError → GatewayError
  | .invalid reason => invalidFilter reason

/-- What an error of a payload becomes. -/
def ofPayload (e : PayloadError) : GatewayError :=
  match e with
  | .malformed .. | .schemaMismatch _ => invalidPayload e.message
  | .unsupportedMediaType mediaType => unsupportedMediaType mediaType
  | .encode .. => internal e.message

/-- What an error of a scan becomes. -/
def ofScan (e : ScanError) : GatewayError :=
  match e with
  | .invalidPageSize .. => invalidRequest e.message
  | .rejected why => ofStore why
  | .incomplete why =>
    scanIncomplete why.message <|
      match why with
      | .timeout _ => true
      | _ => false

/-- What an error of the task registry becomes. -/
def ofTask : TaskError → GatewayError
  | .notFound task => taskNotFound task
  | .invalidOperations reason => invalidRequest reason
  | .overloaded reason => overloaded reason
  | .rejected why => ofStore why

end GatewayError
end RecordService
