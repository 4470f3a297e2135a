import Mips.Memory.Segment

/-!
# The text segment

The program's words, upward from `textBase`, one to a slot.  A segment has a
capacity, of which the program need not use everything; slots behind the program
do not exist as far as reading is concerned.
-/

namespace Mips

/-- A loaded program. -/
structure TextSegment where
  /-- The program's words. -/
  words : Array Word
  /-- The number of words that would have fitted. -/
  capacity : Nat
  /-- The program fits. -/
  size_le : words.size ≤ capacity
  /-- No segment is larger than 1 MiB. -/
  capacity_le : capacity ≤ maxCapacity

namespace TextSegment

/-- Loads a program into a segment of `size` bytes. -/
def load (program : Array Word) (size : Nat) : Except LoadError TextSegment :=
  match h : capacity? size with
  | .error e => .error e
  | .ok capacity =>
    if hp : program.size ≤ capacity then
      .ok ⟨program, capacity, hp, capacity?_le h⟩
    else
      .error (.programTooLarge program.size capacity)

/-- The number of instructions. -/
def size (text : TextSegment) : Nat :=
  text.words.size

/-- The address just past the last instruction. -/
def endAddress (text : TextSegment) : Address :=
  textAddress text.size

/-- Whether an address lies within the program, on a word boundary or not. -/
def contains (text : TextSegment) (address : Address) : Bool :=
  textBase ≤ address && address < text.endAddress

/-- The instruction word at an address.  An address below the segment is out of
range whatever its alignment; one above its start has to be aligned first. -/
def read (text : TextSegment) (address : Address) : Except AccessFault Word :=
  if address < textBase then .error (.outOfRange .text address)
  else
    let offset := (address - textBase).toNat
    if offset % 4 ≠ 0 then .error (.misaligned .text address)
    else match text.words[offset / 4]? with
      | some word => .ok word
      | none => .error (.outOfRange .text address)

/-- Every instruction word under its address, in program order. -/
def contents (text : TextSegment) : List (Address × Word) :=
  text.words.toList.zipIdx.map fun (word, slot) => (textAddress slot, word)

/-- One line about how full the segment is. -/
def summary (text : TextSegment) : String :=
  "InstructionMemory(" ++ Numeral.decimal text.size ++ "/" ++ Numeral.decimal text.capacity ++
    " words)"

end TextSegment
end Mips
