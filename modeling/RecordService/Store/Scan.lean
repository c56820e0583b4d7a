import RecordService.Store.Basic
import RecordService.Text.Base64

/-!
# Scans

A scan goes through the live records of a namespace in digest order, page by page. A page that is
not the last carries a resume token, which names the digest of its last record; the next page
starts strictly behind that digest, whatever has been written in the meantime.

* `ResumeToken.ofDigest`, `ResumeToken.digest`: the token of a digest, and back.
* `Records.selected`: what a scan is about.
* `Store.scan`: one page.

Room for a page is taken as unbounded, whatever size is asked for: a page is as long as the records
on it. A service that reserves room for the whole size before it looks for records gives no answer
to a size for which it has none.
-/

namespace RecordService

namespace ResumeToken

/-- The byte that a token starts with. -/
def version : UInt8 := 1

/-- The token of a digest: the base64 of the version and the bytes of the digest. -/
def ofDigest (d : Digest) : String := Base64.encode .url false (version :: d.bytes)

/-- A token without the filling at its end. -/
def withoutFilling (token : String) : String :=
  String.ofList (token.toList.reverse.dropWhile (· = '=')).reverse

/-- The digest that a token names. -/
def digest (token : String) : Except StoreError Digest :=
  match Base64.decode? .url .absent (withoutFilling token) with
  | none => .error (.invalidResumeToken "not base64url")
  | some [] => .error (.invalidResumeToken "empty token")
  | some (v :: rest) =>
    if v = version then
      match Digest.ofBytes? rest with
      | some d => .ok d
      | none => .error (.invalidResumeToken "wrong digest length")
    else .error (.invalidResumeToken "unknown token version")

/-- The digest that a token names, where there is a token. -/
def digestOf : Option String → Except StoreError (Option Digest)
  | none => .ok none
  | some token => (digest token).map some

end ResumeToken

/-- What one page of a scan is asked for. -/
structure ScanRequest where
  selection : Selection
  /-- How many records the page may hold. -/
  size : Nat
  /-- The token that the page before carried. -/
  resume : Option String := none
  /-- The bins to return; none returns all. -/
  bins : Option (List String) := none
  deriving Repr

/-- A page of a scan. Without a token there are no records behind it. -/
structure ScanPage where
  records : List Record
  resume : Option String
  deriving Repr

namespace Records

/-- The live records that are selected. -/
def selected (now : Instant) (sel : Selection) (rs : Records) : Records :=
  rs.filter fun e => e.2.isLive now && e.2.isIn sel.set && e.2.passes sel.filter

/-- The records strictly behind a digest. -/
def behind (d : Option Digest) (rs : Records) : Records :=
  match d with
  | none => rs
  | some d => rs.filter fun e => d < e.1

/-- The first records as a page. If there are more, the token names the last one on it. -/
def page (size : Nat) (view : Digest × StoredRecord → Record) (rs : Records) : ScanPage :=
  let shown := rs.take size
  { records := shown.map view
    resume :=
      if (rs.drop size).isEmpty then none
      else shown.getLast?.map fun last => ResumeToken.ofDigest last.1 }

end Records

namespace Store

/-- One page of a scan. There is room for it, however large its size. -/
def scan (s : Store) (now : Instant) (request : ScanRequest) : Except StoreError ScanPage := do
  s.accessRead
  if request.size = 0 then .error (.parameter "max_records must be positive")
  else
    let rs ← s.space request.selection.ns
    let start ← ResumeToken.digestOf request.resume
    let found := (rs.behind start).selected now request.selection
    pure (found.page request.size fun e =>
      e.2.toRecord request.selection.ns e.1 (e.2.bins.project request.bins) now)

end Store
end RecordService
