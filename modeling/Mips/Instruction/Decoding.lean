import Mips.Instruction.Basic

/-!
# Decoding

Reading an instruction out of a word.  The top six bits select the format; a word
of the register format also needs a known function code.  `Instruction.ofWord`
keeps every field of the word, so encoding its answer gives the word back, and
`decode` goes on to the operation.
-/

namespace Mips

/-- Why a word is not an instruction. -/
inductive DecodeError where
  | unknownOpCode (code : Nat)
  | unknownFunction (code : Nat)
deriving DecidableEq

namespace Word

/-- The op code of a word, its top six bits. -/
def opCode (w : Word) : Nat := w.toNat / 0x4000000

/-- The first source register of a word. -/
def rs (w : Word) : Nat := w.toNat / 0x200000 % 32

/-- The second register of a word. -/
def rt (w : Word) : Nat := w.toNat / 0x10000 % 32

/-- The destination register of a register-format word. -/
def rd (w : Word) : Nat := w.toNat / 0x800 % 32

/-- The shift amount of a register-format word. -/
def shift (w : Word) : Nat := w.toNat / 0x40 % 32

/-- The function code of a register-format word, its low six bits. -/
def function (w : Word) : Nat := w.toNat % 0x40

/-- The signed constant of an immediate-format word, its low half. -/
def immediate (w : Word) : Int16 := Int16.ofNat (w.toNat % 0x10000)

/-- The target index of a jump-format word, its low 26 bits. -/
def index (w : Word) : Nat := w.toNat % 0x4000000

end Word

/-- The instruction that a word holds, with every field of its format. -/
def Instruction.ofWord (w : Word) : Except DecodeError Instruction :=
  match Word.opCode w with
  | 0x00 =>
    match RFunction.ofCode? (Word.function w) with
    | some function => .ok (.r function (Word.rs w) (Word.rt w) (Word.rd w) (Word.shift w))
    | none => .error (.unknownFunction (Word.function w))
  | 0x02 => .ok (.j .j (Word.index w))
  | 0x03 => .ok (.j .jal (Word.index w))
  | 0x04 => .ok (.i .beq (Word.rs w) (Word.rt w) (Word.immediate w))
  | 0x05 => .ok (.i .bne (Word.rs w) (Word.rt w) (Word.immediate w))
  | 0x08 => .ok (.i .addi (Word.rs w) (Word.rt w) (Word.immediate w))
  | 0x23 => .ok (.i .lw (Word.rs w) (Word.rt w) (Word.immediate w))
  | 0x2B => .ok (.i .sw (Word.rs w) (Word.rt w) (Word.immediate w))
  | code => .error (.unknownOpCode code)

/-- The operation that a word stands for. -/
def decode (w : Word) : Except DecodeError Operation :=
  (Instruction.ofWord w).map Instruction.operation

end Mips
