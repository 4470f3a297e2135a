import Mips.Debugger.Command
import Mips.Debugger.Output
import Mips.Debugger.View

/-!
# Debugger sessions

A session is a machine under the control of commands.  Carrying out a command
gives a new session and some output.  The command to run repeats the step
(`Session.runFor`), but gives up after a fixed number of them, so that a program
without an end cannot hold up the prompt.
-/

namespace Mips.Debugger

/-- A machine under control. -/
structure Session where
  machine : Machine
  /-- Whether every instruction is shown before it is executed. -/
  tracing : Bool := false

/-- What a command leads to. -/
structure Reply where
  session : Session
  output : Array Output := #[]
  /-- Whether the session goes on. -/
  continues : Bool := true

namespace Session

/-- Log records below this level are not heard. -/
def threshold : Log.Level := .info

/-- The number of steps after which a run gives up. -/
def runLimit : Nat := 1000000

/-- A message for the standard error stream. -/
def notice (text : String) : Output :=
  .err (text ++ "\n")

/-- The notice that there is nothing left to execute. -/
def finishedNotice : Output :=
  notice "The program has finished"

/-- Takes one step.  The flag says whether it succeeded. -/
def step : Session → Session × Bool × List Output
  | ⟨machine, tracing⟩ =>
    let traced := if tracing then [notice (View.traceLine machine)] else []
    let pc := machine.pc
    match machine.stepWithLog threshold with
    | (machine, none, records) =>
      (⟨machine, tracing⟩, true,
        traced ++ records.map Output.log ++ if machine.isFinished then [finishedNotice] else [])
    | (machine, some fault, records) =>
      (⟨machine, tracing⟩, false,
        traced ++ records.map Output.log ++
          [.log ⟨.error, Word.upperHex pc ++ ": " ++ fault.message⟩])

/-- Takes steps until the program comes to its end, a strict machine meets a
fault, or no more steps are allowed.  Only in the last case there is a warning. -/
def runFor : Nat → Session → Array Output → Session × Array Output
  | 0, session, output =>
    if session.machine.isFinished then (session, output)
    else
      (session, output.push
        (.log ⟨.warn, "Stopped after " ++ Numeral.decimal runLimit ++ " steps"⟩))
  | limit + 1, session, output =>
    if session.machine.isFinished then (session, output)
    else match session.step with
      | (session, succeeded, new) =>
        if succeeded || session.machine.config.permissive then
          runFor limit session (output ++ new)
        else (session, output ++ new)

/-- Carries out a command. -/
def perform (session : Session) : Command → Reply
  | .nothing => { session }
  | .trace true =>
    { session := { session with tracing := true }
      output := #[notice "Instruction tracing is ON"] }
  | .trace false =>
    { session := { session with tracing := false }
      output := #[notice "Instruction tracing is OFF"] }
  | .step =>
    if session.machine.isFinished then { session, output := #[finishedNotice] }
    else match session.step with
      | (session, _, output) => { session, output := output.toArray }
  | .run =>
    match runFor runLimit session #[] with
    | (session, output) => { session, output }
  | .reset =>
    { session := { session with machine := session.machine.reset }
      output := #[notice "Processor reset"] }
  | .registers => { session, output := #[.out (View.registers session.machine)] }
  | .memory => { session, output := #[.out (View.memory session.machine)] }
  | .text => { session, output := #[.out (View.text session.machine)] }
  | .pc => { session, output := #[.out (Word.upperHex session.machine.pc ++ "\n")] }
  | .help => { session, output := #[notice Command.helpText] }
  | .exit => { session, continues := false }
  | .unknown => { session, output := #[notice "Unknown input"] }

/-- Carries out the command on an input line. -/
def performLine (session : Session) (line : String) : Reply :=
  session.perform (Command.parse line)

end Session
end Mips.Debugger
