import EverEqual.Run

/-!
# The command

Reads the arguments, makes the run that they ask for and reports it. The exit code is 1 if the run
failed or if some pair can never be equal, and 0 otherwise. Everything is decided by
`Config.ofArgs` and `run`; this module only reads, prints and writes. The command brings no packages
of its own: it runs in the world it is given, which is empty here.
-/

namespace EverEqual

/-- What the command prints when it is asked for its version. -/
def versionText : String := "dev"

/-- Whether the standard output can show colours. -/
def terminal : IO Bool := do
  if (← IO.getEnv "NO_COLOR").any (· ≠ "") || (← IO.getEnv "TERM") = some "dumb" then
    return false
  else (← IO.getStdout).isTty

/-- Says why the command fails. -/
def giveUp (message : String) : IO UInt32 := do
  IO.eprintln message
  return 1

/-- Prints a report, or writes it to the file with the given name. -/
def Delivery.perform (d : Delivery) (output : String) : IO Unit := do
  if let some text := d.file then
    IO.FS.writeFile output text
  IO.print d.printed

/-- Makes the run that a configuration asks for. -/
def Config.perform (c : Config) (w : World) : IO UInt32 := do
  let (warnings, outcome) := run w c { terminal := ← terminal }
  IO.eprint warnings
  match outcome with
  | .error e => giveUp e.message
  | .ok r =>
    try
      r.delivery.perform c.output
      return if r.failing > 0 then 1 else 0
    catch e => giveUp (RunError.report (.write e.toString)).message

/-- Makes the run that arguments ask for. -/
def command (args : List String) : IO UInt32 :=
  match Config.ofArgs args with
  | .error e => giveUp e.message
  | .ok c =>
    if c.showVersion then do
      IO.println versionText
      return 0
    else c.perform {}

end EverEqual

/-- The command line. -/
def main (args : List String) : IO UInt32 :=
  EverEqual.command args
