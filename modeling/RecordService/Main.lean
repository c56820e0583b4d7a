import RecordService.Http.Handler
import RecordService.Http.Wire
import RecordService.Settings.CommandLine
import Std.Time.DateTime.Timestamp

/-!
# The program

The program reads its flags and its settings, and then answers the requests that come in on standard
input, one after another, on standard output: a listener hands it a connection as these two. A
missing file with settings is written first, with the defaults.
-/

open RecordService

/-- The time in milliseconds. -/
def currentInstant : IO Instant := do
  return (← Std.Time.Timestamp.now).toMillisecondsSinceUnixEpoch.val

/-- Reads the lines of a head. There is none at the end of the input. -/
partial def readHead (input : IO.FS.Stream) (lines : List String) : IO (Option (List String)) := do
  let line ← input.getLine
  if line.isEmpty then return none
  let text := line.trimAsciiEnd.toString
  if !text.isEmpty then readHead input (text :: lines)
  else if lines.isEmpty then readHead input lines
  else return some lines.reverse

/-- Reads a body of a length. -/
partial def readBody (input : IO.FS.Stream) (length : Nat) (done : ByteArray) : IO ByteArray := do
  if length ≤ done.size then return done
  let more ← input.read (USize.ofNat (length - done.size))
  if more.isEmpty then return done
  readBody input length (done ++ more)

/-- Sends a response. -/
def send (output : IO.FS.Stream) (r : Http.Response) : IO Unit := do
  output.putStr r.head
  output.write ⟨r.body.toArray⟩
  output.flush

/-- Answers requests until the input ends. -/
partial def serve (input output : IO.FS.Stream) (g : Gateway) : IO Unit := do
  let some head ← readHead input [] | return ()
  let some request := Http.Request.ofHead? head
    | send output (.plain 400 "the request cannot be read")
  let body ← readBody input request.bodyLength .empty
  let now ← currentInstant
  let fresh := TaskId.ofRandom (← IO.getRandomBytes 16).toList
  let (response, g) :=
    Http.handle (g.settle now) now fresh { request with body := body.toList }
  send output response
  serve input output (g.settle now)

/-- Reads the settings in a file, which is written with the defaults if it is missing. -/
def loadSettings (path : String) : IO (Except SettingsError ServiceSettings) := do
  try
    return ServiceSettings.ofText path (← IO.FS.readFile path)
  catch
    | .noFileOrDirectory .. =>
      try
        IO.FS.writeFile path ServiceSettings.defaultText
        return ServiceSettings.ofText path ServiceSettings.defaultText
      catch e => return .error (.file path e.toString)
    | e => return .error (.file path e.toString)

/-- Reads the settings and serves, or tells why there are none to serve under. -/
def runService (line : CommandLine) : IO UInt32 := do
  let loaded ← loadSettings (line.config.getD ServiceSettings.fileName)
  let settings := loaded.bind fun s =>
    ((line.apply s).check.mapError SettingsError.invalid).map fun _ => line.apply s
  match settings with
  | .error e =>
    IO.eprintln ("Error: " ++ e.message)
    return 1
  | .ok s =>
    serve (← IO.getStdin) (← IO.getStdout) s.gateway
    return 0

/-- The program. -/
def main (args : List String) : IO UInt32 := do
  match CommandLine.parse args with
  | .ok line => runService line
  | .error .displayHelp =>
    IO.print CommandLine.helpText
    return 0
  | .error .displayVersion =>
    IO.println (CommandLine.programName ++ " " ++ buildVersion)
    return 0
  | .error e =>
    IO.eprintln ("error: " ++ e.message)
    return 2
