import RecordService.Document.Json.Printer
import RecordService.Document.Json.Reader
import RecordService.Document.MessagePack.Printer
import RecordService.Document.MessagePack.Reader
import RecordService.Payload.Shape
import RecordService.Payload.Value

/-!
# Payloads

* `Codec.write`: the bytes of a document in a format.
* `Codec.read`: the thing of a given shape that the bytes spell out, and nothing else besides it.
  What stands behind it only counts once the thing itself has been read.
-/

namespace RecordService.Codec

/-- The bytes of a document. -/
def write (codec : Codec) (d : Document) : Bytes :=
  match codec with
  | .json => Json.print d
  | .messagePack => MessagePack.print d

/-- The tree that bytes begin with, and the bytes behind it that belong to no white space. -/
def tree (codec : Codec) (b : Bytes) : Document × Bytes :=
  match codec with
  | .json =>
    let r := Json.read b
    (r.document, Json.skipSpace (r.rest.getD []))
  | .messagePack =>
    let r := MessagePack.read b
    (r.document, r.rest.getD [])

/-- The error of bytes that stand behind a payload. -/
def trailing (codec : Codec) (count : Nat) : PayloadError :=
  match codec with
  | .json => .ofFault .json .malformed
  | .messagePack => .malformed .messagePack (toString count ++ " trailing bytes after payload")

/-- The thing of a shape that the bytes spell out. -/
def read {α : Type} (codec : Codec) (shape : Nat → Document → Except Fault α) (b : Bytes) :
    Except PayloadError α :=
  let (d, rest) := codec.tree b
  match shape codec.nestingLimit d with
  | .error fault => .error (.ofFault codec fault)
  | .ok a => if rest = [] then .ok a else .error (codec.trailing rest.length)

/-- The value that the bytes spell out. -/
def readValue (codec : Codec) (b : Bytes) : Except PayloadError Value :=
  codec.read Value.ofDocument b

/-- The bytes of a value. -/
def writeValue (codec : Codec) (v : Value) : Bytes := codec.write (v.toDocument codec)

/-- A list of texts. -/
def texts (depth : Nat) (d : Document) : Except Fault (List String) :=
  d.asList Document.asText depth

end RecordService.Codec
