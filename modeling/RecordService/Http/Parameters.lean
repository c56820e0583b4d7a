import RecordService.Gateway.Basic
import RecordService.Text.Blank
import RecordService.Text.Percent

/-!
# Parameters

Paths and queries come as raw text. A parameter that does not read is an error of the request.

* `pathSegments`: a path is split at `/` before its escapes are resolved, so that an escaped slash
  stays inside its segment.
* `RecordQuery`, `ScanQuery`, `ExecuteQuery`: the parameters of the requests. A parameter may be
  given once; the names of others are not looked at.
-/

namespace RecordService.Http

/-! ## Paths -/

/-- The text of a path segment. -/
def segmentText? (raw : String) : Option String := Bytes.text? (Percent.unescape raw)

/-- The segments of a path. -/
def pathSegments (path : String) : Except GatewayError (List String) :=
  ((Percent.splitAll '/' path.toList).map String.ofList).mapM fun raw =>
    match segmentText? raw with
    | some s => .ok s
    | none => .error (.invalidKey ("path segment '" ++ raw ++ "' is not valid UTF-8"))

/-! ## Single parameters -/

/-- A number below `bound`. Blank text is no number at all. -/
def number (name : String) (bound : Nat) (raw : Option String) :
    Except GatewayError (Option Nat) :=
  match (raw.map Text.trim).filter (· ≠ "") with
  | none => .ok none
  | some s =>
    match Text.natural? bound s with
    | some n => .ok (some n)
    | none =>
      .error (.invalidRequest (name ++ " must be a non-negative integer, got '" ++ s ++ "'"))

/-- A number of 32 bits. -/
def word (name : String) (raw : Option String) : Except GatewayError (Option UInt32) :=
  (number name (2 ^ 32) raw).map (·.map UInt32.ofNat)

/-- The names between commas, without blanks around them and without empty ones; none if there
are no names. -/
def binNames (raw : Option String) : Option (List String) :=
  raw.bind fun s =>
    let parts := (Percent.splitAll ',' s.toList).map fun part => Text.trim (String.ofList part)
    let names := parts.filter (· ≠ "")
    if names.isEmpty then none else some names

/-- The filter of a token. -/
def filterOf (token : Option String) : Except GatewayError (Option Expression) :=
  (Expression.ofToken? token).mapError .ofFilter

/-! ## Queries -/

/-- The fields of a query that have one of the names, if none has the same name as another. -/
def knownFields? (names : List String) (query : String) : Option (List (String × String)) :=
  let found := (Percent.fields query).filter fun f => names.contains f.1
  if (found.map (·.1)).Nodup then some found else none

/-- The parameters of a request about one record. -/
structure RecordQuery where
  keyType : Option String := none
  filter : Option String := none
  bins : Option String := none
  ttl : Option String := none
  generation : Option String := none
  deriving DecidableEq, Repr

namespace RecordQuery

/-- The parameters in a query. -/
def ofQuery? (query : String) : Option RecordQuery :=
  (knownFields? ["keytype", "filterexp", "bins", "ttl", "generation"] query).map fun fields =>
    { keyType := fields.lookup "keytype"
      filter := fields.lookup "filterexp"
      bins := fields.lookup "bins"
      ttl := fields.lookup "ttl"
      generation := fields.lookup "generation" }

/-- The address of a path. -/
def address (q : RecordQuery) (path : String) : Except GatewayError Address :=
  (pathSegments path).bind fun segments =>
    (Address.ofSegments segments q.keyType).mapError .ofKey

/-- The seconds until a written record expires. -/
def timeToLive (q : RecordQuery) : Except GatewayError (Option UInt32) := word "ttl" q.ttl

/-- The parameters of a write. -/
def write (q : RecordQuery) : Except GatewayError WriteParameters :=
  (word "generation" q.generation).bind fun generation =>
    q.timeToLive.map fun ttl => ⟨generation, ttl⟩

end RecordQuery

/-- The parameters of a scan. -/
structure ScanQuery where
  maxRecords : Option String := none
  from_ : Option String := none
  filter : Option String := none
  bins : Option String := none
  deriving DecidableEq, Repr

namespace ScanQuery

/-- The parameters in a query. -/
def ofQuery? (query : String) : Option ScanQuery :=
  (knownFields? ["maxRecords", "from", "filterexp", "bins"] query).map fun fields =>
    { maxRecords := fields.lookup "maxRecords"
      from_ := fields.lookup "from"
      filter := fields.lookup "filterexp"
      bins := fields.lookup "bins" }

/-- The size of the page. -/
def size (q : ScanQuery) : Except GatewayError (Option Nat) :=
  number "maxRecords" (2 ^ 64) q.maxRecords

/-- The token to go on from; an empty one is none. -/
def token (q : ScanQuery) : Option String := q.from_.filter (· ≠ "")

end ScanQuery

/-- The parameters of a background task. -/
structure ExecuteQuery where
  filter : Option String := none
  deriving DecidableEq, Repr

/-- The parameters in a query. -/
def ExecuteQuery.ofQuery? (query : String) : Option ExecuteQuery :=
  (knownFields? ["filterexp"] query).map fun fields => ⟨fields.lookup "filterexp"⟩

/-- The selection of records of a namespace or set by a filter token. -/
def selectionOf (ns : String) (set token : Option String) : Except GatewayError Selection :=
  (filterOf token).map fun filter => ⟨ns, set, filter⟩

end RecordService.Http
