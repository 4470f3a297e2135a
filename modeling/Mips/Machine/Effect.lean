import Mips.Machine.Basic

/-!
# The effect of an operation

An operation is carried out in two parts.  `Machine.effect` reads whatever the
operation needs, makes every check that can fail, and says what is to change: at
most one register, at most one data word, and the program counter.
`Machine.commit` makes that change and cannot fail.  So an operation changes
nothing unless it succeeds as a whole.
-/

namespace Mips

/-- What an operation changes. -/
structure Effect where
  /-- The register that receives a value. -/
  register : Option (Nat × Word) := none
  /-- The data slot that receives a word. -/
  slot : Option (Nat × Word) := none
  /-- The address of the next instruction. -/
  pc : Address
deriving DecidableEq

namespace Machine

/-- The address of the instruction behind the current one. -/
def following (m : Machine) : Address :=
  m.pc + 4

/-- The effect of giving register `n` a value, provided there is such a
register. -/
def assign (n : Nat) (value : Word) (pc : Address) : Except Fault Effect := do
  Registers.writable n
  return { register := some (n, value), pc }

/-- The effect of giving `rd` a function of `rs` and `rt`. -/
def combine (m : Machine) (rd rs rt : Nat) (f : Word → Word → Word) : Except Fault Effect := do
  let a ← m.registers.read rs
  let b ← m.registers.read rt
  assign rd (f a b) m.following

/-- The slot of the data word `offset` bytes below the address `base`. -/
def dataSlot (m : Machine) (base : Word) (offset : Int) : Except Fault Nat :=
  (m.data.slot (base - Word.ofInt offset)).mapError Fault.access

/-- The effect of a branch on a condition between `rs` and `rt`. -/
def branch (m : Machine) (rs rt : Nat) (offset : Int) (taken : Word → Word → Bool) :
    Except Fault Effect := do
  let a ← m.registers.read rs
  let b ← m.registers.read rt
  return { pc := if taken a b then m.following + Word.ofInt (4 * offset) else m.following }

/-- What an operation would change, or why it fails.  Sources are read in the
order given here, and the register that receives a value is looked at last. -/
def effect (m : Machine) : Operation → Except Fault Effect
  | .add rd rs rt => m.combine rd rs rt fun a b => a + b
  | .sub rd rs rt => m.combine rd rs rt fun a b => a - b
  | .and rd rs rt => m.combine rd rs rt fun a b => a &&& b
  | .or rd rs rt => m.combine rd rs rt fun a b => a ||| b
  | .slt rd rs rt => m.combine rd rs rt fun a b => if Word.signed a < Word.signed b then 1 else 0
  | .sll rd rt shift => do
    let a ← m.registers.read rt
    assign rd (UInt32.ofNat (a.toNat <<< (shift % 32))) m.following
  | .srl rd rt shift => do
    let a ← m.registers.read rt
    assign rd (UInt32.ofNat (a.toNat >>> (shift % 32))) m.following
  | .jr rs => do
    let target ← m.registers.read rs
    return { pc := target }
  | .addi rt rs immediate => do
    let a ← m.registers.read rs
    assign rt (a + Word.ofInt immediate) m.following
  | .lw rt rs offset => do
    let base ← m.registers.read rs
    let slot ← m.dataSlot base offset
    assign rt (m.data.get slot) m.following
  | .sw rt rs offset => do
    let base ← m.registers.read rs
    let value ← m.registers.read rt
    let slot ← m.dataSlot base offset
    return { slot := some (slot, value), pc := m.following }
  | .beq rs rt offset => m.branch rs rt offset fun a b => a == b
  | .bne rs rt offset => m.branch rs rt offset fun a b => a != b
  | .j index => return { pc := jumpTarget m.pc index }
  | .jal index => assign Register.returnAddress m.following (jumpTarget m.pc index)

/-- Makes the change that an effect describes. -/
def commit (m : Machine) (effect : Effect) : Machine :=
  { m with
    registers := match effect.register with
      | some (n, value) => m.registers.set n value
      | none => m.registers
    data := match effect.slot with
      | some (slot, value) => m.data.set slot value
      | none => m.data
    pc := effect.pc }

/-- Carries out an operation, whatever the program says.  The answer comes with
the fault if the operation fails. -/
def execute (m : Machine) (operation : Operation) : Machine × Option Fault :=
  match m.effect operation with
  | .ok effect => (m.commit effect, none)
  | .error fault => (m, some fault)

end Machine
end Mips
