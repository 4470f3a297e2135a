import Mips.Register

/-!
# Lines

What a line of source text consists of once it has been read: a label, a
statement, or both.  A statement is a mnemonic with operands.  Mnemonics, register
names and numbers are kept as they are written, whether they mean anything or not.
-/

namespace Mips

/-- An operand as it is written. -/
inductive Operand where
  | register (register : Register)
  | number (text : String)
  | label (name : String)
  /-- A number with a base register in parentheses. -/
  | offset (text : String) (base : Register)
deriving DecidableEq

/-- The kinds of operand. -/
inductive OperandKind where
  | register | number | label | offset
deriving DecidableEq

/-- A kind of operand as messages show it. -/
def OperandKind.display : OperandKind → String
  | .register => "a register"
  | .number => "a number"
  | .label => "a label"
  | .offset => "an offset(register) operand"

/-- The kind of an operand. -/
def Operand.kind : Operand → OperandKind
  | .register _ => .register
  | .number _ => .number
  | .label _ => .label
  | .offset _ _ => .offset

/-- A mnemonic with operands. -/
structure Statement where
  mnemonic : String
  operands : List Operand
deriving DecidableEq

/-- A line of source text that is not empty. -/
inductive Line where
  /-- A label on its own. -/
  | label (name : String)
  /-- A statement, perhaps behind a label. -/
  | statement (label? : Option String) (content : Statement)
deriving DecidableEq

namespace Line

/-- The label that a line defines. -/
def label? : Line → Option String
  | .label name => some name
  | .statement label? _ => label?

/-- The statement on a line. -/
def statement? : Line → Option Statement
  | .label _ => none
  | .statement _ content => some content

end Line
end Mips
