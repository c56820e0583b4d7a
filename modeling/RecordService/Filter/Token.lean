import RecordService.Filter.Check
import RecordService.Payload.Wire

/-!
# Filters as bytes and tokens

An expression is written in MessagePack: a map from the name of its form to its content, or the
bare name if there is no content. As a token it is the base64 of these bytes.

* `Expression.toBytes`, `Expression.ofBytes`: as bytes. Only a checked expression is read.
* `Expression.token`, `Expression.ofToken`: as a token.
-/

namespace RecordService

/-- The name of a comparison. -/
def Comparison.name : Comparison → String
  | eq => "Eq"
  | ne => "Ne"
  | gt => "Gt"
  | ge => "Ge"
  | lt => "Lt"
  | le => "Le"

namespace Expression

/-- The forms of expressions. -/
inductive Form
  | compare (op : Comparison)
  | and | or | not | bin | binExists | generation | literal
  deriving DecidableEq, Repr

/-- Every form, in the order of the places that pass for names. -/
def Form.all : List Form :=
  [.compare .eq, .compare .ne, .compare .gt, .compare .ge, .compare .lt, .compare .le,
    .and, .or, .not, .bin, .binExists, .generation, .literal]

/-- The name of a form. -/
def Form.name : Form → String
  | .compare op => op.name
  | .and => "And"
  | .or => "Or"
  | .not => "Not"
  | .bin => "Bin"
  | .binExists => "BinExists"
  | .generation => "Generation"
  | .literal => "Literal"

/-- The document of a form with its content. -/
def formDocument (form : Form) (content : Document) : Document := .object [(form.name, content)]

mutual

/-- The document of an expression. -/
def toDocument : Expression → Document
  | compare op left right =>
    formDocument (.compare op) (.list [toDocument left, toDocument right])
  | and operands => formDocument .and (.list (operandDocuments operands))
  | or operands => formDocument .or (.list (operandDocuments operands))
  | not operand => formDocument .not (toDocument operand)
  | bin name kind => formDocument .bin (.list [.text name, .text kind.name])
  | binExists name => formDocument .binExists (.text name)
  | generation => .text Form.generation.name
  | literal v => formDocument .literal (v.toDocument .messagePack)

/-- The documents of operands. -/
def operandDocuments : List Expression → List Document
  | [] => []
  | e :: rest => toDocument e :: operandDocuments rest

end

/-! ## Reading -/

/-- The form that a document names. -/
def formOf (depth : Nat) (d : Document) : Except Fault Form :=
  (variantIndex .messagePack (Form.all.map Form.name) depth d).map fun i =>
    Form.all.getD i .generation

/-- The kind of bin that a document names. -/
def binKindOf (depth : Nat) (d : Document) : Except Fault BinKind :=
  (bareVariant .messagePack (BinKind.all.map BinKind.name) depth d).map fun i =>
    BinKind.all.getD i .int

/-- The fields of a bin found so far. -/
structure BinDraft where
  name : Option String := none
  kind : Option BinKind := none

/-- Takes in the field of a bin at a place. -/
def fitBin (i depth : Nat) (d : Document) (s : BinDraft) : Except Fault BinDraft :=
  match i with
  | 0 => (d.asText depth).map fun x => { s with name := some x }
  | _ => (binKindOf depth d).map fun x => { s with kind := some x }

/-- The bin of a document. -/
def binOf (depth : Nat) (d : Document) : Except Fault Expression := do
  let s ← readFields .messagePack ["name", "kind"] 0 fitBin {} depth d
  let name ← required "name" s.name
  pure (bin name (← required "kind" s.kind))

/-- The expression of a form that has no content. -/
def ofEmpty (content : Document) : Except Fault Expression :=
  match content with
  | .null => .ok generation
  | d => .error d.headerMisfit

/-- The fault of bytes where a list of expressions is due: they pass for numbers, which are no
expressions, but an empty list is one. -/
def ofNoList (depth : Nat) : Document → Except Fault (List Expression)
  | .bytes [] => .ok []
  | .bytes _ => .error .other
  | d => .error (d.misfit depth)

mutual

/-- The expression of a document. Of the containers only lists, bins and what is inside literals
count for `depth`. -/
def ofDocument (depth : Nat) : Document → Except Fault Expression
  | .map [(k, d)] =>
    (formOf depth k).bind fun
      | .compare op =>
        (listOf depth (some 2) d).bind fun
          | [left, right] => .ok (compare op left right)
          | _ => .error .other
      | .and => (listOf depth none d).map and
      | .or => (listOf depth none d).map or
      | .not => (ofDocument depth d).map not
      | .bin => binOf depth d
      | .binExists => (d.asText depth).map binExists
      | .generation => ofEmpty d
      | .literal => (Value.ofDocument depth d).map literal
  | .map _ => .error .other
  | d =>
    (formOf depth d).bind fun
      | .generation => .ok generation
      | _ => .error .other

/-- The expressions of a list, of which no more than `limit` are looked at. -/
def listOf (depth : Nat) (limit : Option Nat) : Document → Except Fault (List Expression)
  | .list items =>
    match depth with
    | 0 => .error .malformed
    | depth + 1 => itemsOf depth limit items
  | d => ofNoList depth d

/-- The expressions of the items of a list. -/
def itemsOf (depth : Nat) (limit : Option Nat) : List Document → Except Fault (List Expression)
  | [] => .ok []
  | d :: rest =>
    if limit = some 0 then .error .other
    else
      (ofDocument depth d).bind fun e =>
        (itemsOf depth (limit.map (· - 1)) rest).map (e :: ·)

end

/-! ## Bytes and tokens -/

/-- The bytes of an expression. -/
def toBytes (e : Expression) : Bytes := MessagePack.print e.toDocument

/-- Why bytes are no filter. -/
inductive ReadFault
  | undecodable (why : Fault)
  | trailing (count : Nat)
  | refused (why : FilterFault)

/-- The text of a read fault. -/
def ReadFault.message : ReadFault → String
  | undecodable why => why.message
  | trailing count => toString count ++ " trailing bytes after expression"
  | refused why => why.message

/-- The checked expression that bytes spell out. -/
def ofBytes (b : Bytes) : Except ReadFault Expression :=
  let (d, rest) := Codec.tree .messagePack b
  match ofDocument Codec.messagePack.nestingLimit d with
  | .error why => .error (.undecodable why)
  | .ok e =>
    if rest ≠ [] then .error (.trailing rest.length)
    else
      match e.check with
      | .error why => .error (.refused why)
      | .ok _ => .ok e

/-- The token of an expression. -/
def token (e : Expression) : String := Base64.encode .url false e.toBytes

end Expression

/-- Why a token is no filter. -/
inductive FilterError
  | invalid (reason : String)
  deriving DecidableEq, Repr

/-- The text of a filter error. -/
def FilterError.message : FilterError → String
  | .invalid reason => "invalid filter expression: " ++ reason

namespace Expression

/-- The expression that a token stands for. -/
def ofToken (token : String) : Except FilterError Expression :=
  match Base64.decode? .url .optional token with
  | none => .error (.invalid "not base64url: <base64>")
  | some b =>
    match ofBytes b with
    | .error why => .error (.invalid ("invalid expression: " ++ why.message))
    | .ok e => .ok e

/-- The filter of an optional token; an empty token is none. -/
def ofToken? (token : Option String) : Except FilterError (Option Expression) :=
  match token with
  | none => .ok none
  | some t => if t = "" then .ok none else (ofToken t).map some

end Expression
end RecordService
