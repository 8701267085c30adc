import Fluxion.CommandLine

/-!
# The program

Runs a command line with the environment and the standard streams of the process. A session of
the shell answers every line before it reads the next one.
-/

namespace Fluxion.Program

/-- Writes a text at once. -/
def say (text : String) : IO Unit := do
  let output ← IO.getStdout
  output.putStr text
  output.flush

/-- Answers lines of the standard input until it ends or a line ends the session. -/
partial def converse (prompt : String) (w : Workspace Float) : IO Unit := do
  say prompt
  let line ← (← IO.getStdin).getLine
  if line.isEmpty then return
  match Shell.respond w line with
  | (none, _) => return
  | (some answer, w) =>
    say answer
    converse prompt w

/-- The environment variables that settings depend on. -/
def readEnvironment : IO (String → Option String) := do
  let values ← Settings.names.mapM fun name => do return (name, ← IO.getEnv name)
  return fun name => (values.lookup name).join

/-- Runs a command line and returns its exit code. -/
def run (arguments : List String) : IO UInt32 := do
  let env ← readEnvironment
  match Arguments.parse arguments with
  | .error .help =>
    say CommandLine.help
    return 0
  | .error (.refused e) =>
    IO.eprintln e.report
    return 2
  | .ok a =>
    let settings := Settings.ofEnvironment env
    if a.expression.isNone then
      converse settings.prompt (a.workspace settings)
      return 0
    else
      let exit := CommandLine.runWith settings a ""
      say exit.output
      return exit.code.toUInt32

end Fluxion.Program

/-- The program. -/
def main (arguments : List String) : IO UInt32 := Fluxion.Program.run arguments
