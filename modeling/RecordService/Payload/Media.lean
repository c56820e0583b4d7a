import RecordService.Payload.Fault
import RecordService.Text.Blank
import RecordService.Text.Percent

/-!
# Media types

* `Codec.ofMediaType?`: the format that a media type names; parameters behind `;` do not count.
* `Codec.ofContentType`: the format of a body. Without a header it is JSON.
* `Codec.ofAccept`: the format of an answer. The first entry that is served wins, and a wildcard
  or an absent header leaves the choice to the caller.
-/

namespace RecordService.Codec

/-- The media type under which a format is sent. -/
def mediaType : Codec → String
  | .json => "application/json"
  | .messagePack => "application/msgpack"

/-- The text before the first semicolon, without blanks around it. -/
def essence (s : String) : String :=
  Text.trim (String.ofList (s.toList.takeWhile (· ≠ ';')))

/-- The format that a media type names. -/
def ofMediaType? (s : String) : Option Codec :=
  let name := (essence s).toLower
  if name = "application/json" then some .json
  else if name = "application/msgpack" ∨ name = "application/x-msgpack" then some .messagePack
  else none

/-- A header without blanks around it, if anything is left of it. -/
def headerText? (header : Option String) : Option String :=
  (header.map Text.trim).filter (· ≠ "")

/-- The format of a request body. -/
def ofContentType (header : Option String) : Except PayloadError Codec :=
  match headerText? header with
  | none => .ok .json
  | some h =>
    match ofMediaType? h with
    | some codec => .ok codec
    | none => .error (.unsupportedMediaType h)

/-- The format that one entry of an `Accept` header asks for. -/
def codecOfItem? (fallback : Codec) (entry : String) : Option Codec :=
  let name := essence entry
  if name = "*/*" ∨ name.toLower = "application/*" then some fallback else ofMediaType? name

/-- The format of a response body. -/
def ofAccept (header : Option String) (fallback : Codec) : Except PayloadError Codec :=
  match headerText? header with
  | none => .ok fallback
  | some h =>
    let entries := (Percent.splitAll ',' h.toList).map String.ofList
    match entries.findSome? (codecOfItem? fallback) with
    | some codec => .ok codec
    | none => .error (.unsupportedMediaType h)

end RecordService.Codec
