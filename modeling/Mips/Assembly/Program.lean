import Mips.Assembly.Resolution
import Mips.Assembly.Symbols
import Mips.Log

/-!
# Assembled programs

Assembling reads a whole source text into a listing, collects its labels, and
resolves its statements in order.  Each of the three is finished before the next
begins, so a malformed line is reported before a label that is defined twice, and
that before a statement that denotes no operation, wherever they stand.
-/

namespace Mips

/-- The meaning of a source text. -/
structure Program where
  symbols : Symbols
  /-- What the statements denote, in their order. -/
  operations : List Operation

/-- The statements of a listing with their lines. -/
def Listing.statements (listing : Listing) : List (Located Statement) :=
  listing.filterMap fun line => line.value.statement?.map line.withValue

namespace Program

/-- Resolves the statement in slot `slot` of the text segment. -/
def resolveAt (addressOf : String → Option Address) (slot : Nat) (line : Located Statement) :
    Except AssemblyError Operation :=
  (line.value.resolve addressOf (textAddress slot)).mapError fun error =>
    line.withValue (.unresolved error)

/-- The program that a listing denotes. -/
def ofListing (listing : Listing) : Except AssemblyError Program := do
  let symbols ← Symbols.ofListing listing
  let operations ← listing.statements.zipIdx.mapM fun (line, slot) =>
    resolveAt (symbols[·]?) slot line
  return { symbols, operations }

/-- The program that a source text denotes. -/
def ofSource (source : String) : Except AssemblyError Program := do
  let listing ← (Listing.parse source).mapError fun error => error.withValue (.malformed error.value)
  ofListing listing

/-- The instructions of a program, in order. -/
def instructions (program : Program) : List Instruction :=
  program.operations.map Operation.instruction

/-- The instruction words of a program, in order. -/
def words (program : Program) : List Word :=
  program.instructions.map Instruction.encode

/-- The record of a program that has just been assembled. -/
def record (program : Program) : Log.Record :=
  ⟨.debug, "Lowered " ++ Numeral.decimal program.operations.length ++ " instructions and " ++
    Numeral.decimal program.symbols.size ++ " labels"⟩

end Program

/-- The instruction words of a source text. -/
def assemble (source : String) : Except AssemblyError (List Word) :=
  (Program.ofSource source).map Program.words

/-- The instruction words of a source text, each as 32 binary digits. -/
def assembleToBinary (source : String) : Except AssemblyError (List String) :=
  (assemble source).map fun words => words.map Word.binary

end Mips
