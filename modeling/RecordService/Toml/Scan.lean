/-!
# Reading text from the left

A reader takes a text apart: it returns what it read and the rest of the text, or nothing if the
text does not begin with what it reads.
-/

namespace RecordService.Toml

/-- Something that is read off the front of a text. -/
abbrev Reader (α : Type) := List Char → Option (α × List Char)

namespace Reader

variable {α β : Type}

/-- Reads nothing. -/
def nothing (a : α) : Reader α := fun cs => some (a, cs)

/-- Reads one thing and then another that may depend on it. -/
def followed (p : Reader α) (q : α → Reader β) : Reader β := fun cs =>
  (p cs).bind fun r => q r.1 r.2

/-- Reads one thing, or if there is none another. -/
def or (p q : Reader α) : Reader α := fun cs => (p cs).or (q cs)

/-- Reads a thing as something made of it, if that can be made. -/
def refined (p : Reader α) (f : α → Option β) : Reader β :=
  p.followed fun a cs => (f a).map fun b => (b, cs)

/-- Reads a thing as something made of it. -/
def map (f : α → β) (p : Reader α) : Reader β := p.followed fun a => nothing (f a)

/-- Reads a thing if it is there. -/
def optional (p : Reader α) : Reader (Option α) := (p.map some).or (nothing none)

/-- Reads one character of a class. -/
def char (class_ : Char → Bool) : Reader Char
  | [] => none
  | c :: rest => if class_ c then some (c, rest) else none

/-- Reads the characters of a text. -/
def exactly (s : String) : Reader Unit := fun cs =>
  let expected := s.toList
  if cs.take expected.length = expected then some ((), cs.drop expected.length) else none

/-- Reads as many characters of a class as there are. -/
def while_ (class_ : Char → Bool) : Reader (List Char) := fun cs =>
  some (cs.takeWhile class_, cs.dropWhile class_)

/-- Reads an exact count of characters of a class. -/
def count (n : Nat) (class_ : Char → Bool) : Reader (List Char) := fun cs =>
  let found := cs.take n
  if found.length = n ∧ found.all class_ then some (found, cs.drop n) else none

/-- Reads a thing as often as there is one, at most `n` times. What was read so far is held last
first. -/
def upTo (p : Reader α) : Nat → List α → Reader (List α)
  | 0, done => nothing done.reverse
  | n + 1, done => fun cs =>
    match p cs with
    | some (a, rest) => upTo p n (a :: done) rest
    | none => some (done.reverse, cs)

/-- Reads a thing as often as there is one. A thing is never empty, so there are no more of them
than characters. -/
def many (p : Reader α) : Reader (List α) := fun cs => upTo p cs.length [] cs

/-- Reads things with separators between them; there may be none at all. -/
def separated (separator : Reader Unit) (p : Reader α) : Reader (List α) :=
  (p.followed fun a => (many (separator.followed fun _ => p)).map (a :: ·)).or (nothing [])

/-- Reads all of a text. -/
def whole (p : Reader α) (cs : List Char) : Option α :=
  match p cs with
  | some (a, []) => some a
  | _ => none

end Reader
end RecordService.Toml
