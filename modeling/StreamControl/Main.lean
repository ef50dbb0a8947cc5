import StreamControl.Command.Run
import Std.Time.DateTime.Timestamp

/-!
# Entry point

Reads the environment, the clock and one file, and prints what the command ends with.
-/

namespace StreamControl.Console

/-- The variables that the command looks at. -/
def environmentVariables : List String :=
  [Command.acknowledgeVariable, Command.fallbackFilterVariable] ++
    Command.Setting.all.map Command.Setting.envName

/-- Prints lines and errors, and gives the exit code. -/
def finish (e : Command.Exit) : IO UInt32 := do
  let out ← IO.getStdout
  for line in e.lines do
    out.write ⟨(line ++ [0x0A]).toArray⟩
  if let some error := e.error then
    IO.eprintln ("Error: " ++ error)
  return e.code.toUInt32

/-- The content of a file, if it can be read. -/
def load (path : String) : IO (Option Bytes) := do
  try
    let content ← IO.FS.readBinFile path
    return some content.data.toList
  catch _ => return none

end StreamControl.Console

open StreamControl Console

/-- Runs the command; a mistake on the command line ends it with the code 2. -/
def main (arguments : List String) : IO UInt32 := do
  let mut environment : List (String × String) := []
  for name in environmentVariables do
    if let some value ← IO.getEnv name then
      environment := (name, value) :: environment
  let now ← Std.Time.Timestamp.now
  let clock := Clock.still (Int64.ofInt now.toMillisecondsSinceUnixEpoch.val)
  match Command.plan arguments (fun name => environment.lookup name) clock with
  | .finish e => finish e
  | .refuse e =>
    IO.eprintln ("error: " ++ e.message)
    return 2
  | .load path andThen => finish (andThen (← load path))
