import Mips.Instruction.Decoding
import Mips.Register

/-!
# Disassembly

The text of an operation and of a word.  Apart from the two jumps, whose targets
are shown as addresses, the text of an operation is again source text for it.
-/

namespace Mips

namespace Operation

/-- A mnemonic and its operands, as they are written. -/
def written (mnemonic : String) (operands : List String) : String :=
  mnemonic ++ " " ++ String.intercalate ", " operands

/-- An offset in front of its base register. -/
def displaced (offset : Int) (base : Nat) : String :=
  Numeral.decimal offset ++ "(" ++ Register.display base ++ ")"

/-- The text of an operation at address `pc`. -/
def text (pc : Address) : Operation → String
  | .add rd rs rt => written "add" [Register.display rd, Register.display rs, Register.display rt]
  | .sub rd rs rt => written "sub" [Register.display rd, Register.display rs, Register.display rt]
  | .and rd rs rt => written "and" [Register.display rd, Register.display rs, Register.display rt]
  | .or rd rs rt => written "or" [Register.display rd, Register.display rs, Register.display rt]
  | .slt rd rs rt => written "slt" [Register.display rd, Register.display rs, Register.display rt]
  | .sll rd rt shift => written "sll" [Register.display rd, Register.display rt, Numeral.decimal shift]
  | .srl rd rt shift => written "srl" [Register.display rd, Register.display rt, Numeral.decimal shift]
  | .jr rs => written "jr" [Register.display rs]
  | .addi rt rs immediate =>
    written "addi" [Register.display rt, Register.display rs, Numeral.decimal immediate]
  | .lw rt rs offset => written "lw" [Register.display rt, displaced offset rs]
  | .sw rt rs offset => written "sw" [Register.display rt, displaced offset rs]
  | .beq rs rt offset =>
    written "beq" [Register.display rs, Register.display rt, Numeral.decimal offset]
  | .bne rs rt offset =>
    written "bne" [Register.display rs, Register.display rt, Numeral.decimal offset]
  | .j index => written "j" [Word.lowerHex (jumpTarget pc index)]
  | .jal index => written "jal" [Word.lowerHex (jumpTarget pc index)]

end Operation

/-- The text of the word at address `pc`.  The word zero, a shift of `$zero` into
itself, is shown as `noop`, and a word that is no instruction as plain data. -/
def disassemble (pc : Address) (w : Word) : String :=
  if w = 0 then "noop"
  else match decode w with
    | .ok operation => operation.text pc
    | .error _ => ".word " ++ Word.lowerHex w

end Mips
