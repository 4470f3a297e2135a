import Mips.Word

/-!
# Operations

An operation is an instruction with nothing left but what it does: its name and
the fields it uses, each in its role.  Registers and shift amounts are numbers,
immediates and offsets are integers (already sign-extended), and the two jumps
carry the index of their target among the words of a 256 MiB region.  Operations
are what decoding a word yields, what a line of source text denotes, and what the
machine executes.
-/

namespace Mips

/-- What an instruction does. -/
inductive Operation where
  /-- `rd` receives the sum of `rs` and `rt`. -/
  | add (rd rs rt : Nat)
  /-- `rd` receives the difference of `rs` and `rt`. -/
  | sub (rd rs rt : Nat)
  /-- `rd` receives the bits set in both `rs` and `rt`. -/
  | and (rd rs rt : Nat)
  /-- `rd` receives the bits set in `rs` or in `rt`. -/
  | or (rd rs rt : Nat)
  /-- `rd` receives one if `rs` is less than `rt` as a signed number, else zero. -/
  | slt (rd rs rt : Nat)
  /-- `rd` receives `rt` shifted left. -/
  | sll (rd rt shift : Nat)
  /-- `rd` receives `rt` shifted right, zeros coming in at the top. -/
  | srl (rd rt shift : Nat)
  /-- Execution goes on at the address in `rs`. -/
  | jr (rs : Nat)
  /-- `rt` receives the sum of `rs` and a constant. -/
  | addi (rt rs : Nat) (immediate : Int)
  /-- `rt` receives the data word `offset` bytes below the address in `rs`. -/
  | lw (rt rs : Nat) (offset : Int)
  /-- The data word `offset` bytes below the address in `rs` receives `rt`. -/
  | sw (rt rs : Nat) (offset : Int)
  /-- Skips `offset` instructions from the next one on if `rs` equals `rt`. -/
  | beq (rs rt : Nat) (offset : Int)
  /-- Skips `offset` instructions from the next one on if `rs` differs from
  `rt`. -/
  | bne (rs rt : Nat) (offset : Int)
  /-- Execution goes on at the word `index` of the current region. -/
  | j (index : Nat)
  /-- As `j`, and `$ra` receives the address of the next instruction. -/
  | jal (index : Nat)
deriving DecidableEq

/-- The index of an address among the words of its 256 MiB region: its top four
and its low two bits are dropped. -/
def regionIndex (address : Address) : Nat :=
  address.toNat / 4 % 0x4000000

/-- The address of word `index` in the region that `pc` lies in. -/
def jumpTarget (pc : Address) (index : Nat) : Address :=
  UInt32.ofNat (pc.toNat / 0x10000000 * 0x10000000 + index % 0x4000000 * 4)

end Mips
