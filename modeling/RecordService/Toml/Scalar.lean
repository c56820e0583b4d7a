import RecordService.Bytes
import RecordService.Number.Decimal
import RecordService.Toml.Scan
import RecordService.Toml.Tree

/-!
# TOML scalars

* `string`: text between quotes, with escapes, or between apostrophes, without; in either case on
  one line, or between three of them on several.
* `number`: whole numbers of 64 bits in four bases, and decimal fractions. An underscore may stand
  between two digits.
* `moment`: dates and times. Days are checked against the calendar.
* `scalar`: any of them.
-/

namespace RecordService.Toml

open Reader

/-- Blanks inside a line. -/
def isSpace (c : Char) : Bool := c = ' ' || c = '\t'

/-- Reads blanks inside a line. -/
def spaces : Reader Unit := (while_ isSpace).map fun _ => ()

/-- Reads the end of a line. -/
def newline : Reader Unit := (exactly "\n").or (exactly "\r\n")

/-- Whether a character may stand in a comment or, but for what ends it, in a string: any but the
control characters other than the tabulator. -/
def isPlain (c : Char) : Bool := c = '\t' || (0x20 ≤ c.toNat && c.toNat ≠ 0x7f)

/-! ## Strings -/

/-- Reads a character by its number in hexadecimal. -/
def numbered (digits : Nat) : Reader Char :=
  (count digits fun c => (Bytes.hexValue? c).isSome).refined fun cs =>
    let n := cs.foldl (fun n c => 16 * n + (Bytes.hexValue? c).getD 0) 0
    if n.isValidChar then some (Char.ofNat n) else none

/-- Reads a character behind a backslash. -/
def escape : Reader Char :=
  (char (· = '\\')).followed fun _ => (char fun _ => true).followed fun c =>
    match c with
    | 'b' => nothing '\x08'
    | 't' => nothing '\t'
    | 'n' => nothing '\n'
    | 'f' => nothing '\x0c'
    | 'r' => nothing '\r'
    | '"' => nothing '"'
    | '\\' => nothing '\\'
    | 'u' => numbered 4
    | 'U' => numbered 8
    | _ => fun _ => none

/-- Reads text on one line between quotes. -/
def quoted : Reader String :=
  (char (· = '"')).followed fun _ =>
    (many ((char fun c => isPlain c && c ≠ '"' && c ≠ '\\').or escape)).followed fun cs =>
      (char (· = '"')).map fun _ => String.ofList cs

/-- Reads text on one line between apostrophes. -/
def literal : Reader String :=
  (char (· = '\'')).followed fun _ =>
    (while_ fun c => isPlain c && c ≠ '\'').followed fun cs =>
      (char (· = '\'')).map fun _ => String.ofList cs

/-- Reads the end of a line and all white space behind it. -/
def lineBreaks : Reader Unit :=
  newline.followed fun _ => (many (newline.or ((char isSpace).map fun _ => ()))).map fun _ => ()

/-- Reads a piece of text on several lines between quotes. A backslash at the end of a line takes
away the white space up to the next character. -/
def quotedPiece : Reader (List Char) :=
  ((((char fun c => isPlain c && c ≠ '"' && c ≠ '\\').map ([·])).or
    ((char (· = '\\')).followed fun _ => spaces.followed fun _ => lineBreaks.map fun _ => [])).or
    (escape.map ([·]))).or (newline.map fun _ => ['\n'])

/-- Reads a piece of text on several lines between apostrophes. -/
def literalPiece : Reader (List Char) :=
  ((char fun c => isPlain c && c ≠ '\'').map ([·])).or (newline.map fun _ => ['\n'])

/-- Reads one or two quotes with a piece behind them. -/
def quotesInside (quote : Char) (piece : Reader (List Char)) : Reader (List Char) :=
  let behind (n : Nat) : Reader (List Char) :=
    (count n (· = quote)).followed fun cs => piece.map (cs ++ ·)
  (behind 2).or (behind 1)

/-- Reads three quotes with at most two more before them, which belong to the text. -/
def closing (quote : Char) : Reader (List Char) :=
  let with_ (n : Nat) : Reader (List Char) := (count (n + 3) (· = quote)).map (·.take n)
  ((with_ 2).or (with_ 1)).or (with_ 0)

/-- Reads text on several lines between three quotes. -/
def lines (quote : Char) (piece : Reader (List Char)) : Reader String :=
  (count 3 (· = quote)).followed fun _ => newline.optional.followed fun _ =>
    (many (piece.or (quotesInside quote piece))).followed fun pieces =>
      (closing quote).map fun last => String.ofList (pieces.flatten ++ last)

/-- Reads a string. -/
def string : Reader String :=
  (((lines '"' quotedPiece).or quoted).or (lines '\'' literalPiece)).or literal

/-! ## Numbers -/

/-- Whether a character is a decimal digit. -/
def isDigit : Char → Bool := Text.isDigit

/-- Reads digits of a class, with single underscores between them. The digits are returned. -/
def digits (class_ : Char → Bool) : Reader (List Char) :=
  (char class_).followed fun c =>
    (many ((exactly "_").optional.followed fun _ => char class_)).map (c :: ·)

/-- Reads a sign; none is a plus. -/
def sign : Reader Bool :=
  (char fun c => c = '+' || c = '-').optional.map fun c => c == some '-'

/-- Reads decimal digits that do not begin with a needless zero. -/
def wholeDigits : Reader (List Char) :=
  ((exactly "0").map fun _ => ['0']).or (digits isDigit)

/-- The value of digits in a base up to sixteen. -/
def valueIn (base : Nat) (cs : List Char) : Nat :=
  cs.foldl (fun n c => base * n + (Bytes.hexValue? c).getD 0) 0

/-- An integer of 64 bits. -/
def bounded (n : Int) : Option Node :=
  if -2 ^ 63 ≤ n ∧ n < 2 ^ 63 then some (.integer n) else none

/-- Reads a number in a base behind its mark. -/
def based (mark : String) (base : Nat) : Reader Node :=
  (exactly mark).followed fun _ =>
    (digits fun c => (Bytes.hexValue? c).any (· < base)).refined fun cs => bounded (valueIn base cs)

/-- Reads a decimal whole number. -/
def integer : Reader Node :=
  sign.followed fun negative => wholeDigits.refined fun cs =>
    bounded (if negative then -(valueIn 10 cs : Int) else valueIn 10 cs)

/-- Reads an exponent as text. -/
def exponent : Reader (List Char) :=
  (char fun c => c = 'e' || c = 'E').followed fun _ => sign.followed fun negative =>
    (digits isDigit).map fun cs => 'e' :: (if negative then '-' :: cs else cs)

/-- Reads the decimal places of a fraction as text. -/
def places : Reader (List Char) :=
  (exactly ".").followed fun _ => (digits isDigit).map ('.' :: ·)

/-- Reads a decimal fraction. One that is too large is refused, unless it is negative. -/
def fraction : Reader Node :=
  sign.followed fun negative => wholeDigits.followed fun cs =>
    ((places.followed fun p => exponent.optional.map fun e => p ++ e.getD []).or exponent).refined
      fun tail =>
        match Double.ofText? (String.ofList ((if negative then ['-'] else []) ++ cs ++ tail)) with
        | some x => if x = Double.infinity then none else some (.float x)
        | none => none

/-- Reads the name of an infinity or of the number that is none. -/
def special : Reader Node :=
  sign.followed fun negative =>
    ((exactly "inf").map fun _ =>
      .float (if negative then Double.negInfinity else Double.infinity)).or
      ((exactly "nan").map fun _ => .float Double.nan)

/-- Reads a number. -/
def number : Reader Node :=
  ((((fraction.or special).or (based "0x" 16)).or (based "0o" 8)).or (based "0b" 2)).or integer

/-! ## Dates and times -/

/-- Reads a number of a fixed count of digits within bounds. -/
def part (count_ least greatest : Nat) : Reader Nat :=
  (count count_ isDigit).refined fun cs =>
    let n := valueIn 10 cs
    if least ≤ n ∧ n ≤ greatest then some n else none

/-- The count of days of a month. -/
def daysIn (year month : Nat) : Nat :=
  if month = 2 then
    if year % 4 = 0 ∧ (year % 100 ≠ 0 ∨ year % 400 = 0) then 29 else 28
  else if month = 4 ∨ month = 6 ∨ month = 9 ∨ month = 11 then 30
  else 31

/-- Reads a date. -/
def date : Reader Unit :=
  (part 4 0 9999).followed fun year => (exactly "-").followed fun _ =>
    (part 2 1 12).followed fun month => (exactly "-").followed fun _ =>
      (part 2 1 (daysIn year month)).map fun _ => ()

/-- Reads hours and minutes. -/
def hourMinute : Reader Unit :=
  (part 2 0 23).followed fun _ => (exactly ":").followed fun _ => (part 2 0 59).map fun _ => ()

/-- Reads a time of day. -/
def time : Reader Unit :=
  hourMinute.followed fun _ => (exactly ":").followed fun _ => (part 2 0 60).followed fun _ =>
    ((exactly ".").followed fun _ => (char isDigit).followed fun _ => while_ isDigit).optional.map
      fun _ => ()

/-- Reads the distance from universal time. -/
def offset : Reader Unit :=
  ((char fun c => c = 'Z' || c = 'z').map fun _ => ()).or
    ((char fun c => c = '+' || c = '-').followed fun _ => hourMinute)

/-- Reads a date, a time of day or both. -/
def moment : Reader Node :=
  ((date.followed fun _ =>
    ((char fun c => c = 'T' || c = 't' || c = ' ').followed fun _ => time.followed fun _ =>
      offset.optional).optional.map fun _ => ()).or time).map fun _ => .moment

/-- Reads a scalar. -/
def scalar : Reader Node :=
  ((((string.map Node.string).or moment).or number).or
    ((exactly "true").map fun _ => .bool true)).or ((exactly "false").map fun _ => .bool false)

end RecordService.Toml
