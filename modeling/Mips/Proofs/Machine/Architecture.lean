import Mathlib.Algebra.Group.Int.Defs
import Mathlib.Algebra.Group.Nat.Defs
import Mips.Machine.Step

/-!
# The architecture

What an instruction does, in terms of integers.  An `Architecture` is what a program
can tell about a machine: the values of its registers, the data words under their
addresses, and the program counter, all of them natural numbers.
`Architecture.next` describes the fifteen operations.  It computes with unbounded
integers and reduces a result modulo `2 ^ 32` (`wrap`) only where a word receives it;
the address of the instruction that follows is not reduced at all.  A load or store
at an address without a data word has no next state.

`Machine.architecture` reads such a state off a machine.
-/
namespace Mips

/-- What a program can tell about a machine. -/
@[ext] structure Architecture where
  /-- The value of every register, by number. -/
  register : Nat → Nat
  /-- The data word under an address, if there is one. -/
  word : Nat → Option Nat
  /-- The address of the next instruction. -/
  pc : Nat

/-- The number below `2 ^ 32` that a word holds for an integer. -/
def wrap (value : Int) : Nat :=
  (value % 2 ^ 32).toNat

/-- The two's-complement value of a number below `2 ^ 32`. -/
def signed (n : Nat) : Int :=
  if n < 2 ^ 31 then n else n - 2 ^ 32

namespace Architecture

variable (s : Architecture)

/-- The state with another value in register `n`, unless that is the zero
register. -/
def write (n value : Nat) : Architecture :=
  { s with register := fun i => if i = n ∧ n ≠ 0 then value else s.register i }

/-- The state with another data word under an address. -/
def store (address value : Nat) : Architecture :=
  { s with word := fun a => if a = address then some value else s.word a }

/-- The state before another instruction. -/
def goto (pc : Nat) : Architecture :=
  { s with pc }

/-- The state before the instruction that follows. -/
def advance : Architecture :=
  s.goto (s.pc + 4)

/-- The address that a load or store accesses. -/
def dataAddress (rs : Nat) (offset : Int) : Nat :=
  wrap (s.register rs - offset)

/-- The address that a branch goes to when it is taken. -/
def branchTarget (offset : Int) : Nat :=
  wrap (s.pc + 4 + 4 * offset)

/-- The address that a jump goes to: the top four bits of the program counter in
front of the index of a word. -/
def jumpTarget (index : Nat) : Nat :=
  s.pc / 2 ^ 28 * 2 ^ 28 + 4 * index

/-- **What an operation does.** -/
def next : Operation → Option Architecture
  | .add rd rs rt => some (s.write rd (wrap (s.register rs + s.register rt))).advance
  | .sub rd rs rt => some (s.write rd (wrap (s.register rs - s.register rt))).advance
  | .and rd rs rt => some (s.write rd (s.register rs &&& s.register rt)).advance
  | .or rd rs rt => some (s.write rd (s.register rs ||| s.register rt)).advance
  | .slt rd rs rt =>
    some (s.write rd (if signed (s.register rs) < signed (s.register rt) then 1 else 0)).advance
  | .sll rd rt shift => some (s.write rd (s.register rt * 2 ^ shift % 2 ^ 32)).advance
  | .srl rd rt shift => some (s.write rd (s.register rt / 2 ^ shift)).advance
  | .jr rs => some (s.goto (s.register rs))
  | .addi rt rs immediate => some (s.write rt (wrap (s.register rs + immediate))).advance
  | .lw rt rs offset =>
    (s.word (s.dataAddress rs offset)).map fun value => (s.write rt value).advance
  | .sw rt rs offset =>
    (s.word (s.dataAddress rs offset)).map fun _ =>
      (s.store (s.dataAddress rs offset) (s.register rt)).advance
  | .beq rs rt offset =>
    some (if s.register rs = s.register rt then s.goto (s.branchTarget offset) else s.advance)
  | .bne rs rt offset =>
    some (if s.register rs ≠ s.register rt then s.goto (s.branchTarget offset) else s.advance)
  | .j index => some (s.goto (s.jumpTarget index))
  | .jal index =>
    some ((s.write Register.returnAddress (s.pc + 4)).goto (s.jumpTarget index))

end Architecture

namespace Machine

/-- What a program can tell about a machine. -/
def architecture (m : Machine) : Architecture where
  register n := (m.registers.values[n]?.getD 0).toNat
  word address :=
    if address < 2 ^ 32 then
      ((m.data.read (UInt32.ofNat address)).toOption).map UInt32.toNat
    else none
  pc := m.pc.toNat

end Machine

/-! ## Words as numbers -/

theorem toNat_ofInt (value : Int) : (Word.ofInt value).toNat = wrap value := by
  rw [Word.ofInt_eq]
  unfold wrap UInt32.ofInt
  rw [UInt32.toNat_ofNat']
  omega

theorem toNat_add_eq_wrap (a b : Word) : (a + b).toNat = wrap (a.toNat + b.toNat) := by
  unfold wrap
  rw [UInt32.toNat_add]
  omega

theorem toNat_sub_eq_wrap (a b : Word) : (a - b).toNat = wrap (a.toNat - b.toNat) := by
  have ha := a.toNat_lt
  have hb := b.toNat_lt
  unfold wrap
  rw [UInt32.toNat_sub]
  omega

theorem wrap_add_wrap (a b : Int) : wrap (a + wrap b) = wrap (a + b) := by
  unfold wrap
  omega

theorem wrap_sub_wrap (a b : Int) : wrap (a - wrap b) = wrap (a - b) := by
  unfold wrap
  omega

theorem signed_toNat (w : Word) : Word.signed w = signed w.toNat := by
  have h := w.toNat_lt
  unfold Word.signed signed
  rw [← Int32.toInt_toBitVec, UInt32.toBitVec_toInt32, BitVec.toInt_eq_toNat_cond,
    UInt32.toNat_toBitVec]
  omega

theorem toNat_shiftLeft (w : Word) {shift : Nat} (h : shift < 32) :
    (UInt32.ofNat (w.toNat <<< (shift % 32))).toNat = w.toNat * 2 ^ shift % 2 ^ 32 := by
  rw [UInt32.toNat_ofNat', Nat.mod_eq_of_lt h, Nat.shiftLeft_eq]

theorem toNat_shiftRight (w : Word) {shift : Nat} (h : shift < 32) :
    (UInt32.ofNat (w.toNat >>> (shift % 32))).toNat = w.toNat / 2 ^ shift := by
  rw [UInt32.toNat_ofNat', Nat.mod_eq_of_lt h, Nat.shiftRight_eq_div_pow]
  exact Nat.mod_eq_of_lt (Nat.lt_of_le_of_lt (Nat.div_le_self _ _) w.toNat_lt)

end Mips
