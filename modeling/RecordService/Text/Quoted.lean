import RecordService.Bytes
import RecordService.Text.Invisible

/-!
# Quoted text

`quoted` shows a text between double quotes. Quotes, backslashes and the usual control characters
are escaped by a backslash and a letter, other invisible characters by their number.
-/

namespace RecordService.Text

/-- The hexadecimal digits of a number, without leading zeros. -/
def hexDigits (n : Nat) : List Char :=
  if n < 16 then [Bytes.hexDigit n] else hexDigits (n / 16) ++ [Bytes.hexDigit (n % 16)]

/-- A character as it stands between the quotes. -/
def quotedChar (c : Char) : List Char :=
  if c = '"' ∨ c = '\\' then ['\\', c]
  else if c = '\n' then ['\\', 'n']
  else if c = '\r' then ['\\', 'r']
  else if c = '\t' then ['\\', 't']
  else if c = '\x00' then ['\\', '0']
  else if isInvisible c then ['\\', 'u', '\x7b'] ++ hexDigits c.toNat ++ ['\x7d']
  else [c]

/-- A text between quotes. -/
def quoted (s : String) : String :=
  String.ofList ('"' :: (s.toList.flatMap quotedChar ++ ['"']))

end RecordService.Text
