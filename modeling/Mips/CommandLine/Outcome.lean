import Mips.Build
import Mips.CommandLine.Destination
import Mips.Text.Quoted

/-!
# Outcomes of a command

What a command leaves behind: text on the two output streams, a written file, and
an exit code.  A command that fails writes one line to the standard error stream,
which shows the failure as a term: constructors with their arguments, records with
their fields, and quoted text.
-/

namespace Mips.CommandLine

/-- What a command leaves behind. -/
structure Outcome where
  stdout : String := ""
  stderr : String := ""
  /-- The path and the content of a file that is written. -/
  file? : Option (String × String) := none
  exitCode : Nat := 0
deriving DecidableEq, Inhabited

/-- The outcome of a failure, given as a term. -/
def Outcome.failure (term : String) : Outcome :=
  { stderr := "Error: " ++ term ++ "\n", exitCode := 1 }

/-! ## Failures as terms -/

namespace Term

/-- A constructor and its arguments. -/
def apply (constructor : String) (arguments : List String) : String :=
  constructor ++ "(" ++ String.intercalate ", " arguments ++ ")"

/-- A record and its fields. -/
def record (name : String) (fields : List (String × String)) : String :=
  name ++ " \x7b " ++
    String.intercalate ", " (fields.map fun (field, value) => field ++ ": " ++ value) ++ " \x7d"

end Term

/-- A resolution error as a term. -/
def resolutionTerm : ResolutionError → String
  | .unknownInstruction mnemonic => Term.apply "UnknownInstruction" [Text.quoted mnemonic]
  | .operandCount mnemonic expected found =>
    Term.record "OperandCount"
      [("mnemonic", Text.quoted mnemonic), ("expected", Numeral.decimal expected),
       ("found", Numeral.decimal found)]
  | .invalidOperand position expected found =>
    Term.record "InvalidOperand"
      [("position", Numeral.decimal position), ("expected", Text.quoted expected.display),
       ("found", Text.quoted found.display)]
  | .unknownRegister text => Term.apply "UnknownRegister" [Text.quoted text]
  | .invalidNumber text => Term.apply "InvalidNumber" [Text.quoted text]
  | .outOfRange field value =>
    Term.record "OutOfRange"
      [("field", Text.quoted field.display), ("value", Numeral.decimal value),
       ("min", Numeral.decimal field.min), ("max", Numeral.decimal field.max)]
  | .undefinedLabel name => Term.apply "UndefinedLabel" [Text.quoted name]

/-- A problem as a term. -/
def problemTerm : Problem → String
  | .malformed error => Term.apply "Syntax" [Text.quoted error.message]
  | .duplicateLabel name => Term.apply "DuplicateLabel" [Text.quoted name]
  | .unresolved error => resolutionTerm error

/-- An assembly error as a term. -/
def assemblyTerm (error : AssemblyError) : String :=
  Term.record "AssemblerError"
    [("line", Numeral.decimal error.number), ("text", Text.quoted error.text),
     ("kind", problemTerm error.value)]

/-- A load error as a term. -/
def loadTerm : LoadError → String
  | .invalidMemorySize size => Term.apply "InvalidMemorySize" [Numeral.decimal size]
  | .programTooLarge count capacity =>
    Term.record "ProgramTooLarge"
      [("count", Numeral.decimal count), ("capacity", Numeral.decimal capacity)]

/-- A build error as a term. -/
def buildTerm : BuildError → String
  | .assembly error => Term.apply "Assembler" [assemblyTerm error]
  | .load error => loadTerm error

/-- A write error as a term. -/
def writeTerm (error : WriteError) : String :=
  let system (code : Nat) (kind message : String) :=
    Term.record "Os"
      [("code", Numeral.decimal code), ("kind", kind), ("message", Text.quoted message)]
  match error with
  | .notFound => system 2 "NotFound" "No such file or directory"
  | .notDirectory => system 20 "NotADirectory" "Not a directory"
  | .isDirectory => system 21 "IsADirectory" "Is a directory"
  | .nameTooLong => system 36 "InvalidFilename" "File name too long"

/-! ## Files -/

/-- What an outcome comes to in a directory with some files: its file is written
there, or it is shown, or it leaves the directory, or the command fails. -/
def Outcome.inDirectory (files : List String) (outcome : Outcome) : Outcome :=
  match outcome.file? with
  | none => outcome
  | some (path, content) =>
    match Destination.ofPath files path with
    | .error error => .failure (writeTerm error)
    | .ok (.file name) => { outcome with file? := some (name, content) }
    | .ok .standardOutput => { outcome with stdout := outcome.stdout ++ content, file? := none }
    | .ok .standardError => { outcome with stderr := outcome.stderr ++ content, file? := none }
    | .ok .outside => { outcome with file? := none }

end Mips.CommandLine
