import Mips.Text.Numeral

/-!
# Machine words

Registers, memory slots, instructions and addresses are all 32 bits wide.  This
module fixes the three readings of such a word that the rest of the library
uses: its bytes (`Word.bytes`), its two's-complement value (`Word.signed`), and the
word that an integer stands for modulo `2 ^ 32` (`Word.ofInt`).  It also fixes how
words are written, and at which addresses the slots of the two memory segments
lie.
-/

namespace Mips

/-- A 32-bit machine word. -/
abbrev Word := UInt32

/-- A 32-bit byte address. -/
abbrev Address := UInt32

namespace Word

/-- The two's-complement value of `w`. -/
def signed (w : Word) : Int :=
  w.toInt32.toInt

/-- The word congruent to an integer modulo `2 ^ 32`. -/
def ofInt : Int → Word
  | .ofNat n => UInt32.ofNat n
  | .negSucc n => -UInt32.ofNat (n + 1)

/-- The four bytes of `w`, the most significant one first. -/
def bytes (w : Word) : List Nat :=
  [w.toNat / 0x1000000, w.toNat / 0x10000 % 0x100, w.toNat / 0x100 % 0x100, w.toNat % 0x100]

/-- A word as eight hexadecimal digits in upper case. -/
def upperHex (w : Word) : String :=
  "0x" ++ Numeral.upperHex 8 w.toNat

/-- A word as eight hexadecimal digits in lower case. -/
def lowerHex (w : Word) : String :=
  "0x" ++ Numeral.lowerHex 8 w.toNat

/-- A word as 32 binary digits. -/
def binary (w : Word) : String :=
  Numeral.binary 32 w.toNat

end Word

/-- The address of the first instruction.  The text segment grows upward from
here. -/
def textBase : Address := 0x00400000

/-- The highest address.  The data segment grows downward from here, and the
stack pointer starts here. -/
def dataBase : Address := 0xFFFFFFFF

/-- The address of the instruction in slot `index` of the text segment. -/
def textAddress (index : Nat) : Address :=
  textBase + 4 * UInt32.ofNat index

/-- The address of the word in slot `index` of the data segment. -/
def dataAddress (index : Nat) : Address :=
  dataBase - 4 * UInt32.ofNat index

/-- Natural numbers and their integers stand for the same words. -/
theorem Word.ofNat_eq_ofInt (n : Nat) : UInt32.ofNat n = UInt32.ofInt n := by
  rw [← UInt32.toNat_inj, UInt32.toNat_ofNat', UInt32.ofInt, UInt32.toNat_ofNat']
  omega

theorem Word.ofInt_eq (i : Int) : Word.ofInt i = UInt32.ofInt i := by
  cases i with
  | ofNat n => exact Word.ofNat_eq_ofInt n
  | negSucc n =>
    rw [Int.negSucc_eq, UInt32.ofInt_neg]
    exact congrArg Neg.neg (Word.ofNat_eq_ofInt (n + 1))

theorem toNat_textAddress {index : Nat} (h : index < 0x3FF00000) :
    (textAddress index).toNat = 0x400000 + 4 * index := by
  unfold textAddress textBase
  rw [UInt32.toNat_add, UInt32.toNat_mul, UInt32.toNat_ofNat']
  simp
  omega

theorem toNat_dataAddress {index : Nat} (h : index < 0x40000000) :
    (dataAddress index).toNat = 0xFFFFFFFF - 4 * index := by
  unfold dataAddress dataBase
  rw [UInt32.toNat_sub, UInt32.toNat_mul, UInt32.toNat_ofNat']
  simp
  omega

end Mips
