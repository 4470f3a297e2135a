import Mips.CommandLine.Arguments
import Mips.CommandLine.Outcome
import Mips.Machine.Run
import Mips.Text.Blank

/-!
# The simulator command

Runs a source text to its end and shows the registers and the data words in use.
Nothing is shown if the run is cut short by a fault or by the limit on its steps.
A run without a limit need not come to an end, so it is given a number of steps to
try, and has no outcome if these are not enough.
-/

namespace Mips.CommandLine.Simulator

/-- How the simulator is called. -/
structure Options where
  file : String
  config : Config := {}
  /-- The number of steps after which the run is given up. -/
  maxSteps? : Option Nat := none

/-- The flags and options of the simulator. -/
def switches : List Switch :=
  [{ long := "permissive" },
   { long := "instruction-memory-size", value := .optional },
   { long := "data-memory-size", value := .optional },
   { long := "max-steps", value := .required }]

/-- The options that a command line gives. -/
def Options.ofArguments (arguments : List String) : Except UsageError Options := do
  let arguments ← Arguments.parse switches arguments
  let usual : Config := {}
  let textSize ← arguments.natValue? "instruction-memory-size"
  let dataSize ← arguments.natValue? "data-memory-size"
  return {
    file := ← arguments.file
    config := {
      textSize := textSize.getD usual.textSize
      dataSize := dataSize.getD usual.dataSize
      permissive := arguments.hasFlag "permissive" }
    maxSteps? := ← arguments.natValue? "max-steps" }

/-- A word in hexadecimal and as a signed number. -/
def wordText (word : Word) : String :=
  Word.upperHex word ++ " (" ++ Numeral.decimal (Word.signed word) ++ ")"

/-- One register as a line of output. -/
def registerLine (name : String) (value : Word) : String :=
  Text.alignRight 6 name ++ " = " ++ wordText value ++ "\n"

/-- One data word as a line of output. -/
def dataLine (address : Address) (value : Word) : String :=
  Word.upperHex address ++ " = " ++ wordText value ++ "\n"

/-- The registers and the data words in use. -/
def finalState (m : Machine) : String :=
  "Registers:\n" ++
    String.join (m.registers.contents.map fun (name, value) => registerLine name value) ++
    "Data memory:\n" ++
    String.join (m.data.contents.map fun (address, value) => dataLine address value)

/-- The outcome of a run that is over. -/
def conclude (maxSteps : Nat) : Machine.Completion → Outcome
  | .finished m => { stdout := finalState m }
  | .failed m fault => .failure (Text.quoted (Word.lowerHex m.pc ++ ": " ++ fault.message))
  | .unfinished _ =>
    .failure (Text.quoted
      ("program did not finish within " ++ Numeral.decimal maxSteps ++ " steps"))

/-- Runs a source text.  Without a limit of its own the run is tried for `fuel`
steps. -/
def run (fuel : Nat) (options : Options) (source : String) : Option Outcome :=
  match Machine.build source options.config with
  | .error error => some (.failure (buildTerm error))
  | .ok m =>
    match options.maxSteps? with
    | some limit => some (conclude limit (m.complete limit))
    | none =>
      match m.complete fuel with
      | .unfinished _ => none
      | completion => some (conclude fuel completion)

end Mips.CommandLine.Simulator
