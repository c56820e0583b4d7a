import RecordService.Document.Basic

/-!
# Wire formats and what may be wrong with a payload

* `Codec`: the two wire formats and where they differ: how deep containers may nest, and what a
  list with more items than a structure has fields is taken for.
* `Fault`: why bytes do not decode. Either the bytes are no text of the format, or they are, but
  not of the shape that was asked for (`Mismatch`).
* `PayloadError`: the error that a request with such a payload, or with a media type that is not
  served, is answered with.

Details of a malformed text are not told: `<parser>` stands in their place.
-/

namespace RecordService

/-- The wire formats. -/
inductive Codec
  | json
  | messagePack
  deriving DecidableEq, Repr

/-- The name of a format in messages. -/
def Codec.name : Codec → String
  | .json => "json"
  | .messagePack => "msgpack"

/-- How many containers may nest. -/
def Codec.nestingLimit : Codec → Nat
  | .json => 127
  | .messagePack => 1023

/-- How the shape of a well-formed payload differs from what was asked for. -/
inductive Mismatch
  | missingField (name : String)
  | duplicateField (name : String)
  | unknownVariant (name : String) (expected : List String)
  /-- A number beyond the signed 64-bit range. -/
  | tooLarge (n : Nat)
  /-- The text of a tagged double that names none. -/
  | badDouble (text : String)
  /-- The text of a tagged byte sequence that is no base64. -/
  | badBytes
  /-- Anything else: a value of another kind, or a list of another length. -/
  | other
  deriving DecidableEq, Repr

/-- The names in order, each between backquotes, as alternatives. -/
def alternatives (names : List String) : String :=
  let quoted := names.map fun n => "`" ++ n ++ "`"
  match quoted with
  | [] => "there are no variants"
  | [a] => "expected " ++ a
  | [a, b] => "expected " ++ a ++ " or " ++ b
  | _ => "expected one of " ++ ", ".intercalate quoted

/-- The text of a mismatch. -/
def Mismatch.message : Mismatch → String
  | .missingField name => "missing field `" ++ name ++ "`"
  | .duplicateField name => "duplicate field `" ++ name ++ "`"
  | .unknownVariant name expected => "unknown variant `" ++ name ++ "`, " ++ alternatives expected
  | .tooLarge n => "integer " ++ toString n ++ " does not fit in 64-bit signed range"
  | .badDouble text => "invalid $f64 value: " ++ text
  | .badBytes => "invalid base64 in $bytes: <base64>"
  | .other => "<parser>"

/-- Why bytes do not decode. -/
inductive Fault
  | malformed
  | mismatch (why : Mismatch)
  deriving DecidableEq, Repr

/-- The text of a fault. -/
def Fault.message : Fault → String
  | .malformed => "<parser>"
  | .mismatch why => why.message

/-- The fault of a value of another kind than the one asked for. -/
def Fault.other : Fault := .mismatch .other

/-- What a list is taken for that has more items than a structure has fields. -/
def Codec.surplus : Codec → Fault
  | .json => .malformed
  | .messagePack => .other

/-- Why a payload is refused or cannot be written. -/
inductive PayloadError
  /-- The bytes are no text of the format. -/
  | malformed (codec : Codec) (reason : String)
  /-- The payload is of another shape than the operation expects. -/
  | schemaMismatch (reason : String)
  | unsupportedMediaType (mediaType : String)
  | encode (codec : Codec) (reason : String)
  deriving DecidableEq, Repr

/-- The text of a payload error. -/
def PayloadError.message : PayloadError → String
  | .malformed codec reason => "malformed " ++ codec.name ++ " payload: " ++ reason
  | .schemaMismatch reason => "unexpected payload shape: " ++ reason
  | .unsupportedMediaType mediaType => "unsupported media type: " ++ mediaType
  | .encode codec reason => "failed to encode " ++ codec.name ++ " payload: " ++ reason

/-- The error of a fault in a payload. -/
def PayloadError.ofFault (codec : Codec) : Fault → PayloadError
  | .malformed => .malformed codec Fault.malformed.message
  | .mismatch why => .schemaMismatch why.message

end RecordService
