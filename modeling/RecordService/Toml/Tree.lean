import RecordService.Number.Double

/-!
# TOML trees

A TOML text is a list of statements that build up one table. A header opens a table, a header in
double brackets opens the next table of an array, and an assignment stores a value in the table
opened last, under a key that may be dotted.

How a table came to be decides what may be added to it (`Origin`): a table is opened by at most one
header, a table written in braces is closed, and dotted keys only go on with tables that they, or
the headers of tables inside, have made.

* `Table.assign`, `Table.openTable`, `Table.openItem`: what the statements do.
* `assemble`: the table of a list of statements, if they go together.
-/

namespace RecordService.Toml

/-- How a table came to be. -/
inductive Origin
  /-- By a header, or as the whole text. -/
  | header
  /-- By the header of a table inside it. -/
  | implied
  /-- By a dotted key. -/
  | dotted
  /-- In braces. -/
  | braces
  deriving DecidableEq, Repr

/-- What a key stands for. -/
inductive Node
  | string (s : String)
  | integer (n : Int)
  | float (x : Double)
  | bool (b : Bool)
  /-- A date, a time of day or both. -/
  | moment
  | array (items : List Node)
  | table (origin : Origin) (entries : List (String × Node))
  /-- An array of the tables that headers in double brackets have opened. -/
  | tables (items : List (List (String × Node)))
  deriving Inhabited, Repr

/-- A table: what its keys stand for, in the order in which they came up. -/
abbrev Table := List (String × Node)

/-- A sequence of keys, each inside the table of the one before. -/
abbrev Path := List String

namespace Table

/-- Stores a node under a key, in place of what the key stood for. -/
def set (key : String) (node : Node) : Table → Table
  | [] => [(key, node)]
  | (k, n) :: rest => if k = key then (k, node) :: rest else (k, n) :: set key node rest

/-- Changes the table at a path. Missing tables are made with the origin `made`; into an array of
tables the path leads to the last of them. Dotted keys do not lead into a table that was opened by a
header. -/
def change (made : Origin) (f : Origin → Table → Option Table) :
    Path → Origin → Table → Option Table
  | [], origin, t => f origin t
  | key :: path, _, t =>
    match t.lookup key with
    | none => (change made f path made []).map fun new => t.set key (.table made new)
    | some (.table origin inner) =>
      if origin = .braces ∨ (made = .dotted ∧ origin = .header) then none
      else (change made f path origin inner).map fun new => t.set key (.table origin new)
    | some (.tables items) =>
      match items.getLast? with
      | none => none
      | some last =>
        (change made f path .header last).map fun new =>
          t.set key (.tables (items.dropLast ++ [new]))
    | some _ => none

/-- Stores a value under a new key of the table that a dotted key leads to. -/
def store (dotted : Bool) (key : String) (value : Node) (origin : Origin) (t : Table) :
    Option Table :=
  if (origin == .dotted) = dotted ∧ (t.lookup key).isNone then some (t ++ [(key, value)])
  else none

/-- Stores a value under a key, dotted if there is a path before its last part, in a table of
some origin. -/
def assign (path : Path) (key : String) (value : Node) (origin : Origin) (t : Table) :
    Option Table :=
  t.change .dotted (store (!path.isEmpty) key value) path origin

/-- Opens the table under a key. -/
def openAt (key : String) (t : Table) : Option Table :=
  match t.lookup key with
  | none => some (t.set key (.table .header []))
  | some (.table .implied inner) => some (t.set key (.table .header inner))
  | some _ => none

/-- Opens the next table of the array under a key. -/
def openNextAt (key : String) (t : Table) : Option Table :=
  match t.lookup key with
  | none => some (t.set key (.tables [[]]))
  | some (.tables items) => some (t.set key (.tables (items ++ [[]])))
  | some _ => none

/-- Opens the table at a path. -/
def openTable (path : Path) (key : String) (t : Table) : Option Table :=
  t.change .implied (fun _ t => openAt key t) path .header

/-- Opens the next table of the array at a path. -/
def openItem (path : Path) (key : String) (t : Table) : Option Table :=
  t.change .implied (fun _ t => openNextAt key t) path .header

end Table

/-- A statement. A path is given as all but its last key, and that key. -/
inductive Statement
  | openTable (path : Path) (key : String)
  | openItem (path : Path) (key : String)
  | assign (path : Path) (key : String) (value : Node)
  deriving Repr

/-- What statements add to a table, where `opened` is the path of the table opened last. -/
def assembleFrom (opened : Path) (t : Table) : List Statement → Option Table
  | [] => some t
  | .openTable path key :: rest =>
    (t.openTable path key).bind fun t => assembleFrom (path ++ [key]) t rest
  | .openItem path key :: rest =>
    (t.openItem path key).bind fun t => assembleFrom (path ++ [key]) t rest
  | .assign path key value :: rest =>
    (t.change .implied (fun origin t => t.assign path key value origin) opened .header).bind
      fun t => assembleFrom opened t rest

/-- The table of a list of statements. -/
def assemble (statements : List Statement) : Option Table := assembleFrom [] [] statements
end RecordService.Toml
