import RecordService.Record.Key
import RecordService.Text.Base64
import RecordService.Text.Whole

/-!
# Addresses as path segments

The path of a record is its namespace, its set if it has one, and the text of its key. How that
text is read is told by a key type, which is `STRING` unless the query names another one.

* `Address.ofSegments`: the address of a path.
* `Address.segments`, `Key.token`: the path of an address.
-/

namespace RecordService

/-- Why a path names no record. -/
inductive KeyError
  /-- There are too few or too many segments, or one is empty. -/
  | invalidPath (reason : String)
  | invalidInteger (token : String)
  /-- The key is no base64, or a digest of the wrong length. -/
  | invalidEncoding (reason : String)
  | unsupportedKeyType (name : String)
  deriving DecidableEq, Repr

/-- The text of a key error. -/
def KeyError.message : KeyError → String
  | .invalidPath reason => "invalid record path: " ++ reason
  | .invalidInteger token => "invalid integer key: " ++ token
  | .invalidEncoding reason => "invalid key encoding: " ++ reason
  | .unsupportedKeyType name => "unsupported key type: " ++ name

/-- The key type that a query names, or the default one. -/
def KeyType.ofQuery (name : Option String) : Except KeyError KeyType :=
  match name with
  | none => .ok .string
  | some name =>
    match KeyType.ofName? name with
    | some t => .ok t
    | none => .error (.unsupportedKeyType name)

/-- The bytes of a base64 token. -/
def tokenBytes (token : String) : Except KeyError Bytes :=
  match Base64.decode? .url .optional token with
  | some b => .ok b
  | none => .error (.invalidEncoding "<base64>")

namespace Key

/-- The key that a token spells under a key type. -/
def ofToken (type : KeyType) (token : String) : Except KeyError Key :=
  match type with
  | .string => .ok (.string token)
  | .integer =>
    match Text.signed64? token with
    | some n => .ok (.integer n)
    | none => .error (.invalidInteger token)
  | .bytes => (tokenBytes token).map .bytes
  | .digest =>
    (tokenBytes token).bind fun b =>
      match Digest.ofBytes? b with
      | some d => .ok (.digest d)
      | none =>
        .error (.invalidEncoding
          ("digest must be " ++ toString digestLength ++ " bytes, got " ++ toString b.length))

/-- The token of a key. -/
def token : Key → String
  | .string s => s
  | .integer n => toString n.toInt
  | .bytes b => Base64.encode .url false b
  | .digest d => Base64.encode .url false d.bytes

end Key

namespace Address

/-- The namespace, the set and the key token of a path. -/
def partsOf (segments : List String) : Except KeyError (String × Option String × String) :=
  match segments with
  | [ns, token] => .ok (ns, none, token)
  | [ns, set, token] => .ok (ns, some set, token)
  | _ =>
    .error (.invalidPath
      ("expected namespace[/set]/key, got " ++ toString segments.length ++ " segments"))

/-- The address of a path. The key type is looked at first, then the path, then the key. -/
def ofSegments (segments : List String) (keyType : Option String) : Except KeyError Address :=
  (KeyType.ofQuery keyType).bind fun type =>
    (partsOf segments).bind fun (ns, set, token) =>
      if ns = "" ∨ set = some "" ∨ token = "" then .error (.invalidPath "empty path segment")
      else (Key.ofToken type token).map fun key => ⟨ns, set, key⟩

/-- The path of an address. -/
def segments (a : Address) : List String :=
  match a.set with
  | some set => [a.ns, set, a.key.token]
  | none => [a.ns, a.key.token]

end Address
end RecordService
