import Mips.CommandLine.Arguments
import Mips.CommandLine.Outcome
import Mips.Debugger.Session

/-!
# The debugger command

Loads a source text and carries out commands from the standard input, one to a
line, until one of them ends the session or the input comes to its end.  A prompt
stands in front of every line that is waited for.
-/

namespace Mips.CommandLine.Debugger

open Mips.Debugger (Output Session)

/-- How the debugger is called. -/
structure Options where
  file : String
  permissive : Bool := false

/-- The flags and options of the debugger. -/
def switches : List Switch :=
  [{ long := "permissive" }]

/-- The options that a command line gives. -/
def Options.ofArguments (arguments : List String) : Except UsageError Options := do
  let arguments ← Arguments.parse switches arguments
  return { file := ← arguments.file, permissive := arguments.hasFlag "permissive" }

/-- The text that is shown in front of every input line. -/
def prompt : String := "> "

/-- A log record as a line. -/
def recordLine (record : Log.Record) : String :=
  "[" ++ record.level.name ++ "] " ++ record.text ++ "\n"

/-- What a piece of output adds to the standard error stream, log records among
the rest. -/
def stderrOf (output : Output) : String :=
  match output.record? with
  | some record => recordLine record
  | none => output.stderr

/-- Opens a session on a source text, with what is shown about it. -/
def start (options : Options) (source : String) : Except Outcome (Session × Output) :=
  match Machine.build source { permissive := options.permissive } with
  | .error error => .error (.failure (buildTerm error))
  | .ok machine =>
    .ok ({ machine },
      .log ⟨.info, "Loaded " ++ Numeral.decimal machine.text.size ++ " instructions from " ++
        options.file⟩)

/-- Carries out the commands on input lines, behind the output there is already. -/
def converse (output : Array Output) (session : Session) : List String → Array Output
  | [] => output.push (.err prompt)
  | line :: rest =>
    let reply := session.performLine line
    let output := output.push (.err prompt) ++ reply.output
    if reply.continues then converse output reply.session rest else output

/-- The lines of an input.  The last one counts even if no line feed ends it. -/
def inputLines (input : String) : List String :=
  let lines := Text.lines input.toList
  (if lines.getLast? = some [] then lines.dropLast else lines).map String.ofList

/-- Debugs a source text with the commands of an input. -/
def run (options : Options) (source input : String) : Outcome :=
  match start options source with
  | .error outcome => outcome
  | .ok (session, greeting) =>
    let output := (converse #[greeting] session (inputLines input)).toList
    { stdout := String.join (output.map Output.stdout)
      stderr := String.join (output.map stderrOf) }

end Mips.CommandLine.Debugger
