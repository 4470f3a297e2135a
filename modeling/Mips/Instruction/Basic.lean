import Mips.Mnemonic
import Mips.Operation

/-!
# Instructions in their format

An `Instruction` spells out every field of its encoding, also those that its
operation has no use for.  `Instruction.encode` packs the fields into a word;
a field that is too wide is cut to its low bits.  `Instruction.operation` forgets
the fields without a use, and `Operation.instruction` puts zeros there.
-/

namespace Mips

/-- An instruction as the fields of its encoding. -/
inductive Instruction where
  /-- The register format. -/
  | r (function : RFunction) (rs rt rd shift : Nat)
  /-- The immediate format. -/
  | i (opCode : IOpCode) (rs rt : Nat) (immediate : Int16)
  /-- The jump format. -/
  | j (opCode : JOpCode) (index : Nat)
deriving DecidableEq

namespace Instruction

/-- The word that holds the instruction. -/
def encode : Instruction → Word
  | .r function rs rt rd shift =>
    UInt32.ofNat (rs % 32 * 0x200000 + rt % 32 * 0x10000 + rd % 32 * 0x800 +
      shift % 32 * 0x40 + function.code)
  | .i opCode rs rt immediate =>
    UInt32.ofNat (opCode.code * 0x4000000 + rs % 32 * 0x200000 + rt % 32 * 0x10000 +
      immediate.toUInt16.toNat)
  | .j opCode index =>
    UInt32.ofNat (opCode.code * 0x4000000 + index % 0x4000000)

/-- What the instruction does. -/
def operation : Instruction → Operation
  | .r .add rs rt rd _ => .add rd rs rt
  | .r .sub rs rt rd _ => .sub rd rs rt
  | .r .and rs rt rd _ => .and rd rs rt
  | .r .or rs rt rd _ => .or rd rs rt
  | .r .slt rs rt rd _ => .slt rd rs rt
  | .r .sll _ rt rd shift => .sll rd rt shift
  | .r .srl _ rt rd shift => .srl rd rt shift
  | .r .jr rs _ _ _ => .jr rs
  | .i .addi rs rt immediate => .addi rt rs immediate.toInt
  | .i .lw rs rt immediate => .lw rt rs immediate.toInt
  | .i .sw rs rt immediate => .sw rt rs immediate.toInt
  | .i .beq rs rt immediate => .beq rs rt immediate.toInt
  | .i .bne rs rt immediate => .bne rs rt immediate.toInt
  | .j .j index => .j index
  | .j .jal index => .jal index

end Instruction

/-- The instruction with the fields of an operation and zeros elsewhere. -/
def Operation.instruction : Operation → Instruction
  | .add rd rs rt => .r .add rs rt rd 0
  | .sub rd rs rt => .r .sub rs rt rd 0
  | .and rd rs rt => .r .and rs rt rd 0
  | .or rd rs rt => .r .or rs rt rd 0
  | .slt rd rs rt => .r .slt rs rt rd 0
  | .sll rd rt shift => .r .sll 0 rt rd shift
  | .srl rd rt shift => .r .srl 0 rt rd shift
  | .jr rs => .r .jr rs 0 0 0
  | .addi rt rs immediate => .i .addi rs rt (Int16.ofInt immediate)
  | .lw rt rs offset => .i .lw rs rt (Int16.ofInt offset)
  | .sw rt rs offset => .i .sw rs rt (Int16.ofInt offset)
  | .beq rs rt offset => .i .beq rs rt (Int16.ofInt offset)
  | .bne rs rt offset => .i .bne rs rt (Int16.ofInt offset)
  | .j index => .j .j index
  | .jal index => .j .jal index

end Mips
