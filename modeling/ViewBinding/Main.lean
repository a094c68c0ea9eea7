import ViewBinding.Survey

/-!
# The program

Reads the words after the program's name, runs the command that they name on the files around the
current directory, and ends with the command's status.
-/

namespace ViewBinding

/-- Print on both streams. -/
def Printed.send (p : Printed) : IO Unit := do
  (← IO.getStderr).putStr p.errors
  (← IO.getStdout).putStr p.output

/-- What the environment says on styles. -/
def StyleSettings.ofEnvironment : IO StyleSettings := do
  return {
    force := ← IO.getEnv "CLICOLOR_FORCE"
    never := ← IO.getEnv "NO_COLOR"
    allow := ← IO.getEnv "CLICOLOR"
    terminal := ← (← IO.getStdout).isTty }

/-- Run a command on the disk. -/
def runOnDisk (command : Option Command) : IO Finished := do
  let settings ← StyleSettings.ofEnvironment
  let before ← Survey.ofCommand command
  let done := before.run settings.styled command
  Survey.writeBack before.tree done.workspace.tree
  return done

end ViewBinding

open ViewBinding in
/-- Run the program. -/
def main (words : List String) : IO UInt32 := do
  match Arguments.read words with
  | .error halt =>
    halt.printed.send
    return halt.status.code.toUInt32
  | .ok command =>
    let done ← runOnDisk command
    done.allPrinted.send
    return done.status.code.toUInt32
