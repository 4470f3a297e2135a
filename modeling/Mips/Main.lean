import Mips.CommandLine.Tool

/-!
# The program

The command line: the name of a tool, then its arguments.  Everything that has to
be decided is decided elsewhere; here files are read and written, the standard
input is read line by line, and a simulation without a limit is tried for more and
more steps.
-/

namespace Mips.CommandLine

open Mips.Debugger (Output Session)

/-- Shows an outcome on the streams and gives its exit code. -/
def report (outcome : Outcome) : IO UInt32 := do
  IO.print outcome.stdout
  IO.eprint outcome.stderr
  return UInt32.ofNat outcome.exitCode

/-- The reason behind a system error, if it is one that comes of a path. -/
def writeError? : IO.Error → Option WriteError
  | .noFileOrDirectory _ _ _ => some .notFound
  | .inappropriateType _ code _ =>
    if code = 20 then some .notDirectory else if code = 21 then some .isDirectory else none
  | .invalidArgument _ code _ => if code = 36 then some .nameTooLong else none
  | _ => none

/-- Writes the file of an outcome, shows the outcome, and gives its exit code. -/
def deliver (outcome : Outcome) : IO UInt32 := do
  match outcome.file? with
  | none => report outcome
  | some (path, content) =>
    try
      IO.FS.writeFile path content
      report outcome
    catch error =>
      match writeError? error with
      | some reason => report (.failure (writeTerm reason))
      | none => throw error

/-- Writes a piece of output to its stream. -/
def emit (output : Output) : IO Unit := do
  IO.print output.stdout
  IO.eprint (Debugger.stderrOf output)

/-- Carries out commands from the standard input. -/
partial def converse (session : Session) : IO UInt32 := do
  emit (.err Debugger.prompt)
  (← IO.getStderr).flush
  let line ← (← IO.getStdin).getLine
  if line.isEmpty then return 0
  let reply := session.performLine line
  reply.output.forM emit
  (← IO.getStdout).flush
  if reply.continues then converse reply.session else return 0

/-- Carries out a call that needs no conversation. -/
partial def settle (fuel : Nat) (source : String) (invocation : Invocation) : IO UInt32 :=
  match invocation.run fuel source "" with
  | some outcome => deliver outcome
  | none => settle (2 * fuel) source invocation

/-- Carries out a call. -/
def perform (invocation : Invocation) : IO UInt32 := do
  let source ← IO.FS.readFile invocation.file
  match invocation with
  | .debug options =>
    match Debugger.start options source with
    | .error outcome => deliver outcome
    | .ok (session, greeting) =>
      emit greeting
      converse session
  | invocation => settle 1000000000000 source invocation

end Mips.CommandLine

/-- Runs the tool that the first argument names. -/
def main (arguments : List String) : IO UInt32 :=
  match arguments with
  | [] => Mips.CommandLine.deliver (Mips.CommandLine.UsageError.outcome .unknownProgram)
  | tool :: arguments =>
    match Mips.CommandLine.Invocation.parse tool arguments with
    | .error error => Mips.CommandLine.deliver error.outcome
    | .ok invocation => Mips.CommandLine.perform invocation
