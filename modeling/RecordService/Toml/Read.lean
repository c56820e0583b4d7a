import RecordService.Toml.Scalar

/-!
# Reading TOML

`read?` returns the table of a text. Arrays and tables in braces may be nested, and keys may have
parts, only up to a limit.
-/

namespace RecordService.Toml

open Reader

/-- One more than arrays and tables in braces may be nested, and than a key may have parts. -/
def nestingLimit : Nat := 80

/-! ## Keys -/

/-- Whether a character may stand in a key without quotes. -/
def isBare (c : Char) : Bool :=
  ('A' ≤ c && c ≤ 'Z') || ('a' ≤ c && c ≤ 'z') || isDigit c || c = '-' || c = '_'

/-- Reads the name that a part of a key is, bare or in quotes. -/
def keyName : Reader String :=
  (quoted.or literal).or
    ((char isBare).followed fun c => (while_ isBare).map fun cs => String.ofList (c :: cs))

/-- Reads one part of a key with the blanks around it. -/
def keyPart : Reader String :=
  spaces.followed fun _ => keyName.followed fun name => spaces.map fun _ => name

/-- Reads a key: all but its last part, and that part. -/
def key : Reader (Path × String) :=
  (separated (exactly ".") keyPart).refined fun parts =>
    if parts.length < nestingLimit then parts.getLast?.map fun last => (parts.dropLast, last)
    else none

/-! ## Values -/

/-- Reads a comment. -/
def comment : Reader Unit := (exactly "#").followed fun _ => (while_ isPlain).map fun _ => ()

/-- Reads blanks, line ends and comments. -/
def gaps : Reader Unit :=
  (many ((((char isSpace).map fun _ => ()).or newline).or
    (comment.followed fun _ => newline))).map fun _ => ()

/-- Reads an array of values. A comma may follow the last one. -/
def array (value : Reader Node) : Reader Node :=
  (exactly "[").followed fun _ =>
    (separated (exactly ",") (gaps.followed fun _ => value.followed fun v =>
      gaps.map fun _ => v)).followed fun items =>
      (if items.isEmpty then nothing none else (exactly ",").optional).followed fun _ =>
        gaps.followed fun _ => (exactly "]").map fun _ => .array items

/-- Reads an assignment. -/
def assignment (value : Reader Node) : Reader (Path × String × Node) :=
  key.followed fun (path, last) => (exactly "=").followed fun _ => spaces.followed fun _ =>
    value.map fun v => (path, last, v)

/-- The table in braces of its assignments. -/
def braced (entries : List (Path × String × Node)) : Option Node :=
  (entries.foldlM (fun t (path, key, v) => Table.assign path key v .braces t) []).map
    (.table .braces)

/-- Reads a table in braces. -/
def bracesTable (value : Reader Node) : Reader Node :=
  (exactly "\x7b").followed fun _ =>
    ((separated (exactly ",") ((assignment value).followed fun entry =>
      spaces.map fun _ => entry)).followed fun entries => spaces.followed fun _ =>
        (exactly "\x7d").map fun _ => entries).refined braced

/-- Reads a value in which `room` containers may nest. -/
def value : (room : Nat) → Reader Node
  | 0 => scalar
  | room + 1 => (scalar.or (array (value room))).or (bracesTable (value room))

/-! ## Statements -/

/-- Reads what may follow on a line, and its end or that of the text. -/
def lineEnd : Reader Unit :=
  spaces.followed fun _ => comment.optional.followed fun _ => fun
    | [] => some ((), [])
    | cs => newline cs

/-- Reads a header. -/
def header : Reader Statement :=
  ((exactly "[[").followed fun _ => key.followed fun (path, last) =>
    (exactly "]]").followed fun _ => lineEnd.map fun _ => .openItem path last).or
  ((exactly "[").followed fun _ => key.followed fun (path, last) =>
    (exactly "]").followed fun _ => lineEnd.map fun _ => .openTable path last)

/-- Reads a line: a statement, a comment or nothing. It is not empty. -/
def line : Reader (Option Statement) :=
  spaces.followed fun _ =>
    (((header.map some).or
      ((assignment (value (nestingLimit - 1))).followed fun (path, last, v) =>
        lineEnd.map fun _ => some (.assign path last v))).or
      ((comment.followed fun _ => lineEnd).map fun _ => none)).or (newline.map fun _ => none)

/-- Reads a text without a byte order mark. -/
def statements : Reader (List Statement) :=
  (many line).followed fun found => spaces.map fun _ => found.filterMap id

/-- The table that a text spells out. -/
def read? (s : String) : Option Table :=
  let cs := match s.toList with
    | '\ufeff' :: rest => rest
    | cs => cs
  (statements.whole cs).bind assemble

end RecordService.Toml
