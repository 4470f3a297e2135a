import Mips.CommandLine.Assembler
import Mips.CommandLine.Debugger
import Mips.CommandLine.Simulator

/-!
# The tools

The three commands under their names, and what a call of one of them asks for.
-/

namespace Mips.CommandLine

/-- A call of one of the tools. -/
inductive Invocation where
  | assemble (options : Assembler.Options)
  | simulate (options : Simulator.Options)
  | debug (options : Debugger.Options)

namespace Invocation

/-- The call that a tool's name and its arguments ask for. -/
def parse (tool : String) (arguments : List String) : Except UsageError Invocation :=
  match tool with
  | "mips-assembler" => (Assembler.Options.ofArguments arguments).map assemble
  | "mips-simulator" => (Simulator.Options.ofArguments arguments).map simulate
  | "mips-debugger" => (Debugger.Options.ofArguments arguments).map debug
  | _ => .error .unknownProgram

/-- The file that holds the source text. -/
def file : Invocation → String
  | assemble options => options.file
  | simulate options => options.file
  | debug options => options.file

/-- The outcome of a call, for a source text and a standard input.  A simulation
without a limit is tried for `fuel` steps. -/
def run (fuel : Nat) (source input : String) : Invocation → Option Outcome
  | assemble options => some (Assembler.run options source)
  | simulate options => Simulator.run fuel options source
  | debug options => some (Debugger.run options source input)

end Invocation

/-- The outcome of a call that cannot be understood. -/
def UsageError.outcome (error : UsageError) : Outcome :=
  { stderr := "error: " ++ error.message ++ "\n", exitCode := 1 }

end Mips.CommandLine
