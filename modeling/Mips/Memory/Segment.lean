import Mips.Word

/-!
# Memory segments

A machine has two segments of words, one for its program and one for its data.
This module holds what they share: the sizes that a segment can have
(`capacity?`), the reasons for which a program cannot be loaded (`LoadError`), and
the ways in which an access to an address can fail (`AccessFault`).

Main statement: a segment has as many words as its size in bytes says, and every size
is refused that is none (`capacity?_eq_ok_iff`, `capacity?_eq_error_iff`).
-/

namespace Mips

/-- The two segments of memory. -/
inductive Segment where
  /-- The program, upward from `textBase`. -/
  | text
  /-- The data, downward from `dataBase`. -/
  | data
deriving DecidableEq

/-- The name of a segment in messages. -/
def Segment.name : Segment → String
  | .text => "instruction"
  | .data => "data"

/-- Why an address cannot be accessed. -/
inductive AccessFault where
  /-- The segment has no word there. -/
  | outOfRange (segment : Segment) (address : Address)
  /-- The address lies between two slots of the segment. -/
  | misaligned (segment : Segment) (address : Address)
deriving DecidableEq

/-- The wording of an access fault. -/
def AccessFault.message : AccessFault → String
  | .outOfRange segment address =>
    "address " ++ Word.upperHex address ++ " is outside of " ++ segment.name ++ " memory"
  | .misaligned segment address =>
    "address " ++ Word.upperHex address ++ " is not word-aligned in " ++ segment.name ++
      " memory"

/-- Why a program cannot be loaded. -/
inductive LoadError where
  /-- No segment can have this many bytes. -/
  | invalidMemorySize (size : Nat)
  /-- The text segment has fewer slots than the program has instructions. -/
  | programTooLarge (count capacity : Nat)
deriving DecidableEq

/-- The wording of a load error. -/
def LoadError.message : LoadError → String
  | .invalidMemorySize size =>
    "memory size must be a non-zero multiple of 4 bytes, at most 1 MiB (got " ++
      Numeral.decimal size ++ ")"
  | .programTooLarge count capacity =>
    "program has " ++ Numeral.decimal count ++ " instructions but instruction memory only holds " ++
      Numeral.decimal capacity

/-- The largest number of words that a segment can have, those of 1 MiB. -/
def maxCapacity : Nat := 262144

/-- The number of words in a segment of `size` bytes.  A segment has at least one
word, no part of a word, and at most `maxCapacity` words. -/
def capacity? (size : Nat) : Except LoadError Nat :=
  if size = 0 ∨ size % 4 ≠ 0 ∨ 4 * maxCapacity < size then .error (.invalidMemorySize size)
  else .ok (size / 4)

/-- The sizes in bytes that a segment can have: whole words, at least one, and at most
1 MiB. -/
def IsSegmentSize (size : Nat) : Prop :=
  size ≠ 0 ∧ 4 ∣ size ∧ size ≤ 0x100000

theorem not_isSegmentSize_iff {size : Nat} :
    ¬ IsSegmentSize size ↔ size = 0 ∨ size % 4 ≠ 0 ∨ 4 * maxCapacity < size := by
  unfold IsSegmentSize maxCapacity
  omega

theorem capacity?_of_isSegmentSize {size : Nat} (h : IsSegmentSize size) :
    capacity? size = .ok (size / 4) :=
  if_neg fun hnot => not_isSegmentSize_iff.mpr hnot h

theorem capacity?_of_not_isSegmentSize {size : Nat} (h : ¬ IsSegmentSize size) :
    capacity? size = .error (.invalidMemorySize size) :=
  if_pos (not_isSegmentSize_iff.mp h)

theorem capacity?_eq_ok_iff {size n : Nat} :
    capacity? size = .ok n ↔ IsSegmentSize size ∧ n = size / 4 := by
  by_cases h : IsSegmentSize size
  · rw [capacity?_of_isSegmentSize h]
    simp [h, eq_comm]
  · rw [capacity?_of_not_isSegmentSize h]
    simp [h]

theorem capacity?_eq_error_iff {size : Nat} {e : LoadError} :
    capacity? size = .error e ↔ ¬ IsSegmentSize size ∧ e = .invalidMemorySize size := by
  by_cases h : IsSegmentSize size
  · rw [capacity?_of_isSegmentSize h]
    simp [h]
  · rw [capacity?_of_not_isSegmentSize h]
    simp [h, eq_comm]

theorem capacity?_le {size n : Nat} (h : capacity? size = .ok n) : n ≤ maxCapacity := by
  obtain ⟨⟨-, -, hle⟩, rfl⟩ := capacity?_eq_ok_iff.mp h
  unfold maxCapacity
  omega

end Mips
