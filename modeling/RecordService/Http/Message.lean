import RecordService.Payload.Wire
import RecordService.Payload.Media

/-!
# Requests and responses

A request is taken apart as far as its target: the path, whose escapes are left as they are, and
the query behind the question mark.
-/

namespace RecordService.Http

/-- What a request asks to be done with its target. -/
inductive Method
  | get | head | post | put | patch | delete
  /-- A method that nothing is served under. -/
  | other
  deriving DecidableEq, Repr

/-- The methods that something is served under, by name. -/
def Method.names : List (String × Method) :=
  [("GET", .get), ("HEAD", .head), ("POST", .post), ("PUT", .put), ("PATCH", .patch),
    ("DELETE", .delete)]

/-- The method of a name. -/
def Method.ofName (name : String) : Method := (Method.names.lookup name).getD .other

/-- A request. -/
structure Request where
  method : Method
  path : String
  query : String := ""
  headers : List (String × Bytes) := []
  body : Bytes := []
  deriving Repr

/-- Whether a character may stand in the scheme of a target. -/
def isSchemeChar (c : Char) : Bool := c.isAlphanum || c = '+' || c = '-' || c = '.'

/-- The part of a target behind its scheme and host, if it names them. -/
def withoutHost (cs : List Char) : List Char :=
  match cs.dropWhile isSchemeChar with
  | ':' :: '/' :: '/' :: rest => rest.dropWhile fun c => c ≠ '/' && c ≠ '?'
  | _ => cs

/-- The path and the query of a target. A part behind `#` does not count. -/
def splitTarget (target : String) : String × String :=
  let cs := withoutHost (target.toList.takeWhile (· ≠ '#'))
  (String.ofList (cs.takeWhile (· ≠ '?')), String.ofList ((cs.dropWhile (· ≠ '?')).drop 1))

/-- The request for a target. -/
def Request.ofTarget (method : Method) (target : String) (headers : List (String × Bytes))
    (body : Bytes) : Request :=
  let (path, query) := splitTarget target
  { method, path, query, headers, body }

/-- The first header of a name, in any case of its letters. -/
def Request.header? (r : Request) (name : String) : Option Bytes :=
  (r.headers.find? fun h => h.1.toLower == name).map (·.2)

/-- A response. -/
structure Response where
  status : Nat
  contentType : Option String := none
  /-- The methods that the target is served under, if the request came with another one. -/
  allow : Option String := none
  body : Bytes := []
  deriving DecidableEq, Repr

namespace Response

/-- A response without a body. -/
def bare (status : Nat) : Response := { status }

/-- A response with a document in a wire format. -/
def ofDocument (codec : Codec) (status : Nat) (d : Document) : Response :=
  { status, contentType := some codec.mediaType, body := codec.write d }

/-- A response in plain text. -/
def plain (status : Nat) (text : String) : Response :=
  { status, contentType := some "text/plain; charset=utf-8", body := Bytes.utf8 text }

/-- The response to a request that asks for everything but the body. -/
def withoutBody (r : Response) : Response := { r with body := [] }

end Response
end RecordService.Http
