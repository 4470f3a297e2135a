import Mips.CommandLine.Arguments
import Mips.CommandLine.Outcome
import Mips.Instruction.Disassembly

/-!
# The assembler command

Writes the words of a source text, one to a line, in binary or in hexadecimal, to
the standard output or to a file.  Nothing is written if the text cannot be
assembled.
-/

namespace Mips.CommandLine.Assembler

/-- How the assembler is called. -/
structure Options where
  file : String
  /-- Whether words are written in hexadecimal. -/
  hex : Bool := false
  /-- The file that is written instead of the standard output. -/
  output? : Option String := none

/-- The flags and options of the assembler. -/
def switches : List Switch :=
  [{ long := "hex" }, { long := "output", short? := some 'o', value := .required }]

/-- The options that a command line gives. -/
def Options.ofArguments (arguments : List String) : Except UsageError Options := do
  let arguments ← Arguments.parse switches arguments
  return {
    file := ← arguments.file
    hex := arguments.hasFlag "hex"
    output? := arguments.value? "output" }

/-- One word as a line of output. -/
def wordLine (hex : Bool) (word : Word) : String :=
  (if hex then Word.upperHex word else Word.binary word) ++ "\n"

/-- The output for some words. -/
def listing (hex : Bool) (words : List Word) : String :=
  String.join (words.map (wordLine hex))

/-- Assembles a source text. -/
def run (options : Options) (source : String) : Outcome :=
  match assemble source with
  | .error error => .failure (assemblyTerm error)
  | .ok words =>
    let output := listing options.hex words
    match options.output? with
    | none => { stdout := output }
    | some file => { file? := some (file, output) }

end Mips.CommandLine.Assembler
