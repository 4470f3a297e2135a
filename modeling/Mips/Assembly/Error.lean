import Mips.Source.Listing

/-!
# Assembly errors

Everything that source text can be refused for.  A line can be malformed, it can
define a label that is already defined, and its statement can fail to denote an
operation.  The last has many reasons, which do not depend on where the statement
stands and are a type of their own (`ResolutionError`).
-/

namespace Mips

/-- The parts of an instruction that hold a number from a range. -/
inductive NumericField where
  | immediate | offset | shiftAmount | branchOffset
deriving DecidableEq

namespace NumericField

/-- The name of a field in messages. -/
def display : NumericField → String
  | immediate => "immediate"
  | offset => "offset"
  | shiftAmount => "shift amount"
  | branchOffset => "branch offset"

/-- The least number that a field holds. -/
def min : NumericField → Int
  | shiftAmount => 0
  | _ => -32768

/-- The greatest number that a field holds. -/
def max : NumericField → Int
  | shiftAmount => 31
  | _ => 32767

end NumericField

/-- Why a statement denotes no operation. -/
inductive ResolutionError where
  | unknownInstruction (mnemonic : String)
  | operandCount (mnemonic : String) (expected found : Nat)
  /-- The operand at a position, counted from one, is of the wrong kind. -/
  | invalidOperand (position : Nat) (expected found : OperandKind)
  | unknownRegister (text : String)
  | invalidNumber (text : String)
  | outOfRange (field : NumericField) (value : Int)
  | undefinedLabel (name : String)
deriving DecidableEq

/-- The wording of a resolution error. -/
def ResolutionError.message : ResolutionError → String
  | .unknownInstruction mnemonic => "unsupported instruction `" ++ mnemonic ++ "`"
  | .operandCount mnemonic expected found =>
    "`" ++ mnemonic ++ "` takes " ++ Numeral.decimal expected ++ " operand(s) but " ++
      Numeral.decimal found ++ " were given"
  | .invalidOperand position expected found =>
    "operand " ++ Numeral.decimal position ++ " should be " ++ expected.display ++ ", found " ++
      found.display
  | .unknownRegister text => "unknown register `" ++ text ++ "`"
  | .invalidNumber text => "invalid number `" ++ text ++ "`"
  | .outOfRange field value =>
    field.display ++ " " ++ Numeral.decimal value ++ " is out of range (" ++
      Numeral.decimal field.min ++ " to " ++ Numeral.decimal field.max ++ ")"
  | .undefinedLabel name => "label `" ++ name ++ "` not found"

/-- What is wrong with a line. -/
inductive Problem where
  | malformed (error : SyntaxError)
  | duplicateLabel (name : String)
  | unresolved (error : ResolutionError)
deriving DecidableEq

/-- The wording of a problem, without its line. -/
def Problem.message : Problem → String
  | .malformed error => "syntax error: " ++ error.message
  | .duplicateLabel name => "label `" ++ name ++ "` is already defined"
  | .unresolved error => error.message

/-- Why a source text cannot be assembled: a problem and the line that has it. -/
abbrev AssemblyError := Located Problem

/-- The wording of an assembly error. -/
def AssemblyError.message (error : AssemblyError) : String :=
  "line " ++ Numeral.decimal error.number ++ ": " ++ error.value.message ++ " in `" ++
    error.text ++ "`"

end Mips
