/-!
# Mnemonics

The fifteen instructions, sorted by the format of their encoding.  A mnemonic
knows its spelling, the number of operands it is written with, and the code that
selects it: the function code in the register format, the op code in the other
two.
-/

namespace Mips

/-- The instructions of the register format. -/
inductive RFunction where
  | add | sub | and | or | slt | sll | srl | jr
deriving DecidableEq

/-- The instructions of the immediate format. -/
inductive IOpCode where
  | addi | lw | sw | beq | bne
deriving DecidableEq

/-- The instructions of the jump format. -/
inductive JOpCode where
  | j | jal
deriving DecidableEq

/-- An instruction's name, under the format of its encoding. -/
inductive Mnemonic where
  | r (function : RFunction)
  | i (opCode : IOpCode)
  | j (opCode : JOpCode)
deriving DecidableEq

/-- The function code, the low six bits of a register-format word. -/
def RFunction.code : RFunction → Nat
  | .sll => 0x00
  | .srl => 0x02
  | .jr => 0x08
  | .add => 0x20
  | .sub => 0x22
  | .and => 0x24
  | .or => 0x25
  | .slt => 0x2A

/-- The instruction with a given function code. -/
def RFunction.ofCode? : Nat → Option RFunction
  | 0x00 => some .sll
  | 0x02 => some .srl
  | 0x08 => some .jr
  | 0x20 => some .add
  | 0x22 => some .sub
  | 0x24 => some .and
  | 0x25 => some .or
  | 0x2A => some .slt
  | _ => none

theorem RFunction.ofCode?_code (function : RFunction) :
    RFunction.ofCode? function.code = some function := by
  cases function <;> rfl

theorem RFunction.code_of_ofCode? {code : Nat} {function : RFunction}
    (h : RFunction.ofCode? code = some function) : function.code = code := by
  unfold RFunction.ofCode? at h
  split at h <;> cases h <;> rfl

/-- The op code, the top six bits of an immediate-format word. -/
def IOpCode.code : IOpCode → Nat
  | .beq => 0x04
  | .bne => 0x05
  | .addi => 0x08
  | .lw => 0x23
  | .sw => 0x2B

/-- The op code, the top six bits of a jump-format word. -/
def JOpCode.code : JOpCode → Nat
  | .j => 0x02
  | .jal => 0x03

namespace Mnemonic

/-- Every mnemonic. -/
def all : List Mnemonic :=
  [.r .add, .r .sub, .r .and, .r .or, .r .slt, .r .sll, .r .srl, .r .jr,
   .i .addi, .i .lw, .i .sw, .i .beq, .i .bne, .j .j, .j .jal]

/-- The spelling in source text. -/
def name : Mnemonic → String
  | .r .add => "add"
  | .r .sub => "sub"
  | .r .and => "and"
  | .r .or => "or"
  | .r .slt => "slt"
  | .r .sll => "sll"
  | .r .srl => "srl"
  | .r .jr => "jr"
  | .i .addi => "addi"
  | .i .lw => "lw"
  | .i .sw => "sw"
  | .i .beq => "beq"
  | .i .bne => "bne"
  | .j .j => "j"
  | .j .jal => "jal"

/-- The mnemonic with a given spelling. -/
def ofName? (name : String) : Option Mnemonic :=
  all.find? fun m => m.name == name

/-- No two mnemonics are spelled alike, and every one is found by its spelling. -/
theorem ofName?_eq_some_iff {spelling : String} {m : Mnemonic} :
    ofName? spelling = some m ↔ m.name = spelling := by
  constructor
  · intro h
    simpa using List.find?_some h
  · rintro rfl
    cases m with
    | r function => cases function <;> decide +kernel
    | i opCode => cases opCode <;> decide +kernel
    | j opCode => cases opCode <;> decide +kernel

theorem eq_of_name_eq {m m' : Mnemonic} (h : m.name = m'.name) : m = m' :=
  Option.some.inj ((ofName?_eq_some_iff.mpr h).symm.trans (ofName?_eq_some_iff.mpr rfl))

/-- The number of operands the instruction is written with. -/
def arity : Mnemonic → Nat
  | .r .jr => 1
  | .r _ => 3
  | .i .lw => 2
  | .i .sw => 2
  | .i _ => 3
  | .j _ => 1

/-- The code that selects the instruction within its format. -/
def code : Mnemonic → Nat
  | .r function => function.code
  | .i opCode => opCode.code
  | .j opCode => opCode.code

end Mnemonic
end Mips
