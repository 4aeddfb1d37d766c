import Std.Time.DateTime
import DesignSystem.Identifier
import DesignSystem.Shell.Arguments
import DesignSystem.Shell.Run
/-!
# The program

Answers the requests of jobs from the file system, the random source and the clock, and runs the
invocation that the arguments name.
-/

namespace DesignSystem.Program

/-- The environment variable with the folder of the studio to use if none is given. -/
def storeVariable : String :=
  "DSFORGE_STORE"

/-- The version of the program. -/
def version : String :=
  "0.1.0"

/-- How the program is called. -/
def usage : String :=
  Text.lines [
    "Usage: dsforge [--tokens FILE] [--dark] [--store DIR] [-v] COMMAND",
    "",
    "Commands:",
    "  components",
    "  get PATH [--resolve]",
    "  set PATH VALUE [-o FILE]",
    "  flatten [--format css|json] [--selector SELECTOR]",
    "  generate COMPONENT -s STRATEGY [-o DIR]",
    "  validate",
    "  dark",
    "  brand list",
    "  brand create NAME [--description TEXT]",
    "  brand delete BRAND",
    "  brand use BRAND [--mode light|dark]"]

/-- What a failed action on files comes to. -/
def cause : IO.Error → Disk.Error
  | .noFileOrDirectory .. => .missing
  | .alreadyExists _ code text | .interrupted _ code text | .invalidArgument _ code text
  | .permissionDenied _ code text | .resourceExhausted _ code text
  | .inappropriateType _ code text | .noSuchThing _ code text | .otherError code text
  | .resourceBusy code text | .resourceVanished code text | .unsupportedOperation code text
  | .hardwareFault code text | .unsatisfiedConstraints code text | .illegalOperation code text
  | .protocolError code text | .timeExpired code text =>
    .blocked (.other (text ++ " (os error " ++ toString code ++ ")"))
  | error => .blocked (.other (toString error))

/-- Runs an action on files. -/
def onDisk {α : Type} (action : IO α) : IO (Except Disk.Error α) := do
  return (← action.toBaseIO).mapError cause

/-- The moment now. -/
def clock : IO Instant := do
  let nanos : Nat := (← Std.Time.Timestamp.now).toNanosecondsSinceUnixEpoch.val.toNat
  let seconds : Nat := nanos / Instant.nanosPerSecond
  let day := Std.Time.PlainDate.ofEpochDay ⟨((seconds / 86400 : Nat) : Int)⟩
  let date := Date.of? day.year day.month.val.toNat day.day.val.toNat
  let rest : Nat := seconds % 86400
  let nano := nanos % Instant.nanosPerSecond
  let now := date.bind fun d => Instant.of? d (rest / 3600) (rest / 60 % 60) (rest % 60) nano
  return now.getD Instant.epoch

/-- Answers a request. -/
def answer : (r : Request) → IO r.Reply
  | .read path => onDisk (IO.FS.readFile path)
  | .makeFolders path => onDisk (if path = "" then pure () else IO.FS.createDirAll path)
  | .write path text => onDisk (IO.FS.writeFile path text)
  | .rename source target => onDisk (IO.FS.rename source target)
  | .remove path => onDisk (IO.FS.removeFile path)
  | .freshId => do
    return Identifier.ofBytes ((← IO.getRandomBytes 16).toList.map UInt8.toNat)
  | .now => clock

/-- Performs a job. -/
def perform {α : Type} : Job α → IO α
  | .done a => return a
  | .ask r next => do perform (next (← answer r))

/-- Runs the program on its arguments; the result is its exit code. -/
def run (arguments : List String) : IO UInt32 := do
  match Shell.Invocation.read (← IO.getEnv storeVariable) arguments with
  | .error .helpWanted =>
    IO.print usage
    return 0
  | .error .versionWanted =>
    IO.println ("dsforge " ++ version)
    return 0
  | .error _ =>
    IO.eprint usage
    return 2
  | .ok invocation =>
    match ← perform invocation.run.run with
    | .ok text =>
      IO.print text
      return 0
    | .error failure =>
      IO.eprintln ("error: " ++ failure.message?.getD "a template could not be rendered")
      return 1

end DesignSystem.Program

/-- Runs the program. -/
def main (arguments : List String) : IO UInt32 :=
  DesignSystem.Program.run arguments
