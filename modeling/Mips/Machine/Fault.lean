import Mips.Instruction.Decoding
import Mips.Memory.Segment

/-!
# Faults

What can go wrong when a machine takes a step: an access to memory fails, a word
is no instruction, or an operation names a register that does not exist.
-/

namespace Mips

/-- The wording of a decoding error. -/
def DecodeError.message : DecodeError → String
  | .unknownOpCode code => "unknown op code 0x" ++ Numeral.lowerHex 2 code
  | .unknownFunction code => "unknown R-type function 0x" ++ Numeral.lowerHex 2 code

/-- Why an instruction cannot be executed. -/
inductive Fault where
  /-- Memory refuses an address. -/
  | access (fault : AccessFault)
  /-- The word at the program counter is no instruction. -/
  | undecodable (error : DecodeError)
  /-- There is no register with this number. -/
  | noRegister (number : Nat)
deriving DecidableEq

/-- The wording of a fault. -/
def Fault.message : Fault → String
  | .access fault => fault.message
  | .undecodable error => error.message
  | .noRegister number => "invalid register number " ++ Numeral.decimal number

end Mips
