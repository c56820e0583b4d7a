import RecordService.Http.Message
import RecordService.Text.Blank
import RecordService.Text.Whole

/-!
# Messages as text

The head of a request is a line with its method and target and a line for each header; an empty
line ends it. The body has the length that a header tells.

* `Request.ofHead?`: the request of a head.
* `Response.head`: the head of a response.
-/

namespace RecordService.Http

/-- The header in a line: a name, a colon and a value. -/
def headerOfLine? (line : String) : Option (String × Bytes) :=
  let cs := line.toList
  match cs.dropWhile (· ≠ ':') with
  | [] => none
  | _ :: value =>
    some (String.ofList (cs.takeWhile (· ≠ ':')), Bytes.utf8 (Text.trim (String.ofList value)))

/-- The request of a head, still without its body. -/
def Request.ofHead? : List String → Option Request
  | [] => none
  | first :: headers =>
    match first.splitOn " " with
    | [method, target, _] =>
      (headers.mapM headerOfLine?).map fun headers =>
        .ofTarget (.ofName method) target headers []
    | _ => none

/-- The length of the body, as the head tells it. -/
def Request.bodyLength (r : Request) : Nat :=
  (((r.header? "content-length").bind Bytes.text?).bind (Text.natural? (2 ^ 64))).getD 0

/-- What a status means. -/
def reasonOf : Nat → String
  | 200 => "OK"
  | 201 => "Created"
  | 202 => "Accepted"
  | 204 => "No Content"
  | 400 => "Bad Request"
  | 404 => "Not Found"
  | 405 => "Method Not Allowed"
  | 409 => "Conflict"
  | 413 => "Payload Too Large"
  | 503 => "Service Unavailable"
  | 504 => "Gateway Timeout"
  | _ => "Internal Server Error"

/-- The head of a response with the empty line that ends it. -/
def Response.head (r : Response) : String :=
  let headers :=
    (r.contentType.map ("content-type: " ++ ·)).toList ++ (r.allow.map ("allow: " ++ ·)).toList ++
      ["content-length: " ++ toString r.body.length]
  "\r\n".intercalate
    (("HTTP/1.1 " ++ toString r.status ++ " " ++ reasonOf r.status) :: headers ++ ["", ""])

end RecordService.Http
