import Mips.Machine.Step
import Mips.Text.Blank

/-!
# What the debugger shows

The texts for the registers, the data words in use, and the program.  Every line
of them ends with a line feed.
-/

namespace Mips.Debugger.View

/-- The registers from this one on hold addresses and are shown as such. -/
def firstAddressRegister : Nat := 28

/-- One register.  A register that holds no address is shown as a signed
number. -/
def registerLine (number : Nat) (name : String) (value : Word) : String :=
  Text.alignRight 5 name ++ " = " ++
    (if firstAddressRegister ≤ number then Word.upperHex value
     else Numeral.decimal (Word.signed value)) ++ "\n"

/-- The registers, one to a line. -/
def registers (m : Machine) : String :=
  String.join (m.registers.contents.zipIdx.map fun ((name, value), number) =>
    registerLine number name value)

/-- One data word, byte by byte and as a signed number. -/
def dataLine (address : Address) (value : Word) : String :=
  Word.upperHex address ++ ": " ++
    String.intercalate " " ((Word.bytes value).map (Numeral.upperHex 2)) ++
    " (" ++ Numeral.decimal (Word.signed value) ++ ")\n"

/-- The data words in use, one to a line. -/
def memory (m : Machine) : String :=
  String.join (m.data.contents.map fun (address, value) => dataLine address value)

/-- One instruction, in binary and disassembled.  The next one to be executed is
marked. -/
def textLine (pc address : Address) (word : Word) : String :=
  Word.upperHex address ++ ": " ++
    String.intercalate " " ((Word.bytes word).map (Numeral.binary 8)) ++ "  " ++
    disassemble address word ++ (if address = pc then " <- PC" else "") ++ "\n"

/-- The program, one instruction to a line. -/
def text (m : Machine) : String :=
  String.join (m.text.contents.map fun (address, word) => textLine m.pc address word)

/-- The instruction about to be executed, or why there is none. -/
def traceLine (m : Machine) : String :=
  Word.upperHex m.pc ++ ": " ++
    match m.fetch with
    | .ok word => disassemble m.pc word
    | .error fault => fault.message

end Mips.Debugger.View
