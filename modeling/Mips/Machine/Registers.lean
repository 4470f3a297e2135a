import Mips.Machine.Fault
import Mips.Register

/-!
# The register file

The values of the 32 registers.  Reading fails only for a register that does not
exist.  Writing is split into the question whether the register exists
(`Registers.writable`) and the write itself (`Registers.set`), which leaves the
zero register as it is.
-/

namespace Mips

/-- The values of the machine registers. -/
structure Registers where
  /-- The value of every register, by number. -/
  values : Vector Word Register.count

namespace Registers

/-- Zero in every register but the stack pointer. -/
def initial (stackPointer : Word) : Registers :=
  ⟨(Vector.replicate Register.count 0).set Register.stackPointer stackPointer (by decide)⟩

/-- The value of a register. -/
def read (registers : Registers) (n : Nat) : Except Fault Word :=
  match registers.values[n]? with
  | some value => .ok value
  | none => .error (.noRegister n)

/-- Passes exactly for the registers that exist. -/
def writable (n : Nat) : Except Fault Unit :=
  if n < Register.count then .ok () else .error (.noRegister n)

/-- Gives a register a value.  The zero register keeps its own, and a register
that does not exist is ignored. -/
def set (registers : Registers) (n : Nat) (value : Word) : Registers :=
  if n = Register.zero then registers
  else ⟨registers.values.setIfInBounds n value⟩

/-- Every register's name and value, in the order of their numbers. -/
def contents (registers : Registers) : List (String × Word) :=
  (Register.names.map ("$" ++ ·)).zip registers.values.toList

/-- A register holds what was written last, and the zero register what it always
held. -/
theorem read_set (registers : Registers) (n other : Nat) (value : Word) :
    (registers.set n value).read other =
      if other = n ∧ n ≠ Register.zero ∧ n < Register.count then .ok value
      else registers.read other := by
  unfold set read
  by_cases hzero : n = Register.zero
  · simp [hzero]
  · rw [if_neg hzero, Vector.getElem?_setIfInBounds]
    by_cases h : n = other
    · subst other
      by_cases hn : n < Register.count <;> simp [hn, hzero]
    · simp [h, Ne.symm h]

end Registers
end Mips
