import Mips.Assembly.Error
import Mips.Instruction.Basic

/-!
# Resolution

What operation a statement denotes: the mnemonic is looked up, the operands are
counted, and each operand gives its field a value.  A statement is resolved
against the addresses of all labels and at an address of its own, from which
branch offsets are counted.

When a statement has several faults the first one that is met is reported.
Sources are looked at before the register that receives the result, except that a
branch looks at its label first and a load or store at its offset.
-/

namespace Mips

/-- The integer that a number text without its minus sign denotes: decimal digits,
or hexadecimal digits behind `0x`.  In front of the digits there can be one more
sign, and the number there has to fit 64 bits. -/
def unsignedValue? (text : List Char) : Option Int :=
  let value? := match text with
    | '0' :: 'x' :: digits => Numeral.int? 16 digits
    | '0' :: 'X' :: digits => Numeral.int? 16 digits
    | digits => Numeral.int? 10 digits
  value?.filter fun v => -0x8000000000000000 ≤ v ∧ v < 0x8000000000000000

/-- The integer that a number text denotes, with or without a minus sign in
front. -/
def numberValue? : List Char → Option Int
  | '-' :: text => (unsignedValue? text).map fun v => -v
  | text => unsignedValue? text

namespace NumericField

/-- A number, provided that the field can hold it. -/
def check (field : NumericField) (value : Int) : Except ResolutionError Int :=
  if value < field.min ∨ field.max < value then .error (.outOfRange field value) else .ok value

/-- The number that a text gives a field. -/
def ofText (field : NumericField) (text : String) : Except ResolutionError Int :=
  match numberValue? text.toList with
  | some value => field.check value
  | none => .error (.invalidNumber text)

end NumericField

/-- The number of the machine register that a written register stands for. -/
def Register.resolve (register : Register) : Except ResolutionError Nat :=
  match register.index? with
  | some n => .ok n
  | none => .error (.unknownRegister register.text)

namespace Operand

/-- The register that the operand at `position` names. -/
def register? (position : Nat) : Operand → Except ResolutionError Nat
  | register r => r.resolve
  | other => .error (.invalidOperand position .register other.kind)

/-- The number that the operand at `position` gives a field. -/
def number? (position : Nat) (field : NumericField) : Operand → Except ResolutionError Int
  | number text => field.ofText text
  | other => .error (.invalidOperand position .number other.kind)

/-- The address of the label that the operand at `position` names. -/
def label? (position : Nat) (addressOf : String → Option Address) :
    Operand → Except ResolutionError Address
  | label name =>
    match addressOf name with
    | some address => .ok address
    | none => .error (.undefinedLabel name)
  | other => .error (.invalidOperand position .label other.kind)

/-- The offset and the base register of the operand at `position`. -/
def offset? (position : Nat) : Operand → Except ResolutionError (Int × Nat)
  | offset text base => do
    let value ← NumericField.offset.ofText text
    let n ← base.resolve
    return (value, n)
  | other => .error (.invalidOperand position .offset other.kind)

end Operand

/-- The number of instructions from the one behind `address` to `target`.  A part
of an instruction is dropped. -/
def branchDistance (address target : Address) : Int :=
  ((target.toNat : Int) - (address.toNat + 4)).tdiv 4

namespace Statement

/-- Resolves `rd, rs, rt`. -/
def threeRegisters (operation : Nat → Nat → Nat → Operation) (a b c : Operand) :
    Except ResolutionError Operation := do
  let rs ← b.register? 2
  let rt ← c.register? 3
  let rd ← a.register? 1
  return operation rd rs rt

/-- Resolves `rd, rt, shift`. -/
def shift (operation : Nat → Nat → Nat → Operation) (a b c : Operand) :
    Except ResolutionError Operation := do
  let rt ← b.register? 2
  let rd ← a.register? 1
  let amount ← c.number? 3 .shiftAmount
  return operation rd rt amount.toNat

/-- Resolves `rt, rs, immediate`. -/
def immediate (operation : Nat → Nat → Int → Operation) (a b c : Operand) :
    Except ResolutionError Operation := do
  let rs ← b.register? 2
  let rt ← a.register? 1
  let value ← c.number? 3 .immediate
  return operation rt rs value

/-- Resolves `rt, offset(rs)`. -/
def displaced (operation : Nat → Nat → Int → Operation) (a b : Operand) :
    Except ResolutionError Operation := do
  let (offset, rs) ← b.offset? 2
  let rt ← a.register? 1
  return operation rt rs offset

/-- Resolves `rs, rt, label`. -/
def branch (operation : Nat → Nat → Int → Operation) (addressOf : String → Option Address)
    (address : Address) (a b c : Operand) : Except ResolutionError Operation := do
  let target ← c.label? 3 addressOf
  let offset ← NumericField.branchOffset.check (branchDistance address target)
  let rs ← a.register? 1
  let rt ← b.register? 2
  return operation rs rt offset

/-- Resolves `label`. -/
def jump (operation : Nat → Operation) (addressOf : String → Option Address) (a : Operand) :
    Except ResolutionError Operation := do
  let target ← a.label? 1 addressOf
  return operation (regionIndex target)

/-- The operation that a statement at `address` denotes. -/
def resolve (addressOf : String → Option Address) (address : Address) (statement : Statement) :
    Except ResolutionError Operation :=
  match Mnemonic.ofName? statement.mnemonic with
  | none => .error (.unknownInstruction statement.mnemonic)
  | some mnemonic =>
    match mnemonic, statement.operands with
    | .r .add, [a, b, c] => threeRegisters .add a b c
    | .r .sub, [a, b, c] => threeRegisters .sub a b c
    | .r .and, [a, b, c] => threeRegisters .and a b c
    | .r .or, [a, b, c] => threeRegisters .or a b c
    | .r .slt, [a, b, c] => threeRegisters .slt a b c
    | .r .sll, [a, b, c] => shift .sll a b c
    | .r .srl, [a, b, c] => shift .srl a b c
    | .r .jr, [a] => (a.register? 1).map .jr
    | .i .addi, [a, b, c] => immediate .addi a b c
    | .i .lw, [a, b] => displaced .lw a b
    | .i .sw, [a, b] => displaced .sw a b
    | .i .beq, [a, b, c] => branch .beq addressOf address a b c
    | .i .bne, [a, b, c] => branch .bne addressOf address a b c
    | .j .j, [a] => jump .j addressOf a
    | .j .jal, [a] => jump .jal addressOf a
    | _, operands => .error (.operandCount statement.mnemonic mnemonic.arity operands.length)

end Statement
end Mips
