import RecordService.Settings.File

/-!
# The command line

The flags name the file with the settings and override two settings. A flag with a value is
`--name value` or `--name=value`, and with a single letter `-c value`, `-cvalue` or `-c=value`. A
value does not begin with a hyphen unless it is attached, and each flag is given at most once.

A flag without an attached value is taken in only when the next flag, or the end, has been reached.
What is wrong with it is therefore not told if the next argument is none that is known.
-/

namespace RecordService

/-- The flags with a value. -/
inductive Flag
  | config | bind | logLevel
  deriving DecidableEq, Repr

/-- Why the arguments are no command line to go on with. -/
inductive UsageError
  /-- A value is missing or not one of those that are possible. -/
  | invalidValue
  | unknownArgument
  /-- A flag is given twice. -/
  | argumentConflict
  /-- A flag without a value has one. -/
  | tooManyValues
  | displayHelp
  | displayVersion
  deriving DecidableEq, Repr

/-- The text of a usage error. -/
def UsageError.message : UsageError → String
  | .invalidValue => "a flag has no value or one that is not possible"
  | .unknownArgument => "unexpected argument"
  | .argumentConflict => "a flag cannot be used multiple times"
  | .tooManyValues => "unexpected value for a flag that takes none"
  | .displayHelp => "help was asked for"
  | .displayVersion => "the version was asked for"

namespace Flag

/-- Every flag with a value. -/
def all : List Flag := [config, bind, logLevel]

/-- The name of a flag. -/
def name : Flag → String
  | config => "config"
  | bind => "bind"
  | logLevel => "log-level"

/-- Whether a flag may have a value. -/
def allows : Flag → String → Bool
  | logLevel, value => ["trace", "debug", "info", "warn", "error"].contains value
  | _, _ => true

end Flag

/-- The flags that were given. -/
structure CommandLine where
  config : Option String := none
  bind : Option String := none
  logLevel : Option String := none
  deriving DecidableEq, Repr

namespace CommandLine

/-- The value of a flag. -/
def value? (c : CommandLine) : Flag → Option String
  | .config => c.config
  | .bind => c.bind
  | .logLevel => c.logLevel

/-- Sets the value of a flag. -/
def set (c : CommandLine) (flag : Flag) (value : String) : CommandLine :=
  match flag with
  | .config => { c with config := some value }
  | .bind => { c with bind := some value }
  | .logLevel => { c with logLevel := some value }

/-- Takes in a flag with its value. -/
def give (c : CommandLine) (flag : Flag) (value : String) : Except UsageError CommandLine :=
  if (c.value? flag).isSome then .error .argumentConflict
  else if flag.allows value then .ok (c.set flag value)
  else .error .invalidValue

/-- A flag that has not been taken in yet, and its value if that has come. -/
abbrev Pending := Option (Flag × Option String)

/-- Takes in the flag before. -/
def settle (c : CommandLine) : Pending → Except UsageError CommandLine
  | none => .ok c
  | some (_, none) => .error .invalidValue
  | some (flag, some value) => c.give flag value

/-- What an argument is. -/
inductive Argument
  /-- A flag with a value, if that is attached. -/
  | flag (flag : Flag) (attached : Option String)
  | help
  | version
  /-- A flag without a value that has one. -/
  | overfull
  /-- What looks like a flag and is none. -/
  | unknown
  /-- The mark behind which no flags stand. -/
  | flagsEnd
  | plain
  deriving DecidableEq, Repr

namespace Argument

/-- The flag of a name, with what may be attached to it. -/
def ofLong (name : String) (attached : Option String) : Argument :=
  match Flag.all.find? (·.name == name) with
  | some f => flag f attached
  | none =>
    if name = "help" then (if attached.isSome then overfull else help)
    else if name = "version" then (if attached.isSome then overfull else version)
    else unknown

/-- The flag of a letter, with what stands behind it. -/
def ofShort : Char → List Char → Argument
  | 'c', [] => flag .config none
  | 'c', '=' :: rest => flag .config (some (String.ofList rest))
  | 'c', rest => flag .config (some (String.ofList rest))
  | 'h', _ => help
  | 'V', _ => version
  | _, _ => unknown

/-- What the text of an argument says. -/
def ofText (s : String) : Argument :=
  match s.toList with
  | ['-', '-'] => flagsEnd
  | '-' :: '-' :: rest =>
    let name := String.ofList (rest.takeWhile (· ≠ '='))
    match rest.dropWhile (· ≠ '=') with
    | [] => ofLong name none
    | _ :: attached => ofLong name (some (String.ofList attached))
  | '-' :: letter :: rest => ofShort letter rest
  | _ => plain

end Argument

/-- Reads arguments, where `pending` is the flag before them. -/
def parseFrom (c : CommandLine) (pending : Pending) :
    List String → Except UsageError CommandLine
  | [] => c.settle pending
  | arg :: rest =>
    match Argument.ofText arg with
    | .flag flag none => (c.settle pending).bind fun c => parseFrom c (some (flag, none)) rest
    | .flag flag (some value) =>
      (c.settle pending).bind fun c => (c.give flag value).bind fun c => parseFrom c none rest
    | .help => (c.settle pending).bind fun _ => .error .displayHelp
    | .version => (c.settle pending).bind fun _ => .error .displayVersion
    | .overfull => .error .tooManyValues
    | .unknown => .error .unknownArgument
    | .flagsEnd => if rest.isEmpty then c.settle pending else .error .unknownArgument
    | .plain =>
      match pending with
      | some (flag, none) => parseFrom c (some (flag, some arg)) rest
      | _ => .error .unknownArgument

/-- The name of the program. -/
def programName : String := "recordgate"

/-- What the program says about itself and its flags. -/
def helpText : String :=
  "HTTP gateway for a record store\n\n" ++
  "Usage: " ++ programName ++ " [OPTIONS]\n\n" ++
  "Options:\n" ++
  "  -c, --config <PATH>      Config file (created with defaults if missing)\n" ++
  "      --bind <ADDR>        Listen address, overrides [server] bind\n" ++
  "      --log-level <LEVEL>  Log level, overrides [server] log_level\n" ++
  "                           [possible values: trace, debug, info, warn, error]\n" ++
  "  -h, --help               Print help\n" ++
  "  -V, --version            Print version\n"

/-- Reads the arguments behind the name of the program. -/
def parse (args : List String) : Except UsageError CommandLine := parseFrom {} none args

/-- The settings with those that the flags override. -/
def apply (c : CommandLine) (s : ServiceSettings) : ServiceSettings :=
  { s with
    server :=
      { bind := c.bind.getD s.server.bind, logLevel := c.logLevel.getD s.server.logLevel } }

end CommandLine
end RecordService
