import Mips.Memory.Segment

/-!
# The data segment

Words of data, downward from `dataBase`: slot zero is at the highest address and
every further slot four bytes below the one before, like a stack that grows down.

Main statement: the slot of an address and the address of a slot determine each
other (`DataSegment.slot_eq_ok_iff`), so no two addresses share a word.
-/

namespace Mips

/-- The data words, by slot. -/
structure DataSegment where
  /-- The words, the one at the highest address first. -/
  words : Array Word
  /-- No segment is larger than 1 MiB. -/
  size_le : words.size ≤ maxCapacity

namespace DataSegment

/-- A segment of `size` bytes that holds zeros. -/
def zeroed (size : Nat) : Except LoadError DataSegment :=
  match h : capacity? size with
  | .error e => .error e
  | .ok capacity =>
    .ok ⟨Array.replicate capacity 0, by rw [Array.size_replicate]; exact capacity?_le h⟩

/-- The number of words. -/
def size (data : DataSegment) : Nat :=
  data.words.size

/-- The slot of an address.  Alignment is asked for before range. -/
def slot (data : DataSegment) (address : Address) : Except AccessFault Nat :=
  let offset := (dataBase - address).toNat
  if offset % 4 ≠ 0 then .error (.misaligned .data address)
  else if offset / 4 < data.size then .ok (offset / 4)
  else .error (.outOfRange .data address)

/-- The word in a slot, zero if there is no such slot. -/
def get (data : DataSegment) (slot : Nat) : Word :=
  data.words[slot]?.getD 0

/-- Puts a word into a slot; nothing happens if there is no such slot. -/
def set (data : DataSegment) (slot : Nat) (value : Word) : DataSegment :=
  ⟨data.words.setIfInBounds slot value, by rw [Array.size_setIfInBounds]; exact data.size_le⟩

/-- The word at an address. -/
def read (data : DataSegment) (address : Address) : Except AccessFault Word :=
  (data.slot address).map data.get

/-- Puts a word at an address. -/
def write (data : DataSegment) (address : Address) (value : Word) :
    Except AccessFault DataSegment :=
  match data.slot address with
  | .error fault => .error fault
  | .ok slot => .ok (data.set slot value)

/-- The segment with zeros in every slot. -/
def cleared (data : DataSegment) : DataSegment :=
  ⟨Array.replicate data.size 0, by rw [Array.size_replicate]; exact data.size_le⟩

/-- The words other than zero under their addresses, the highest address first. -/
def contents (data : DataSegment) : List (Address × Word) :=
  (data.words.toList.zipIdx.filter fun (word, _) => word ≠ 0).map fun (word, slot) =>
    (dataAddress slot, word)

/-- One line about how large the segment is. -/
def summary (data : DataSegment) : String :=
  "DataMemory(" ++ Numeral.decimal data.size ++ " words)"

/-! ## Slots and addresses -/

@[simp] theorem size_set (data : DataSegment) (slot : Nat) (value : Word) :
    (data.set slot value).size = data.size := by
  simp [set, size]

@[simp] theorem size_cleared (data : DataSegment) : data.cleared.size = data.size := by
  simp [cleared, size]

/-- A slot holds what was put there last. -/
theorem get_set (data : DataSegment) (slot other : Nat) (value : Word) :
    (data.set slot value).get other =
      if slot = other ∧ slot < data.size then value else data.get other := by
  unfold get set size
  rw [Array.getElem?_setIfInBounds]
  by_cases h : slot = other
  · subst other
    by_cases hslot : slot < data.words.size <;> simp [hslot]
  · simp [h]

/-- The distance of an address from the highest one, which every address has. -/
theorem toNat_dataBase_sub (address : Address) :
    (dataBase - address).toNat = 0xFFFFFFFF - address.toNat := by
  have h := address.toNat_lt
  unfold dataBase
  rw [UInt32.toNat_sub_of_le]
  · rfl
  · rw [UInt32.le_iff_toNat_le]
    simp
    omega

/-- Looking up the slot of an address and taking the address of a slot undo each
other. -/
theorem slot_eq_ok_iff {data : DataSegment} {address : Address} {slot : Nat} :
    data.slot address = .ok slot ↔ slot < data.size ∧ address = dataAddress slot := by
  have hsize : data.size ≤ 262144 := data.size_le
  have haddress := address.toNat_lt
  unfold DataSegment.slot
  rw [toNat_dataBase_sub]
  constructor
  · intro h
    dsimp only at h
    split at h
    · cases h
    · split at h
      · cases h
        refine ⟨by assumption, ?_⟩
        rw [← UInt32.toNat_inj, toNat_dataAddress (by omega)]
        omega
      · cases h
  · rintro ⟨hslot, rfl⟩
    rw [toNat_dataAddress (by omega)]
    have hoffset : 0xFFFFFFFF - (0xFFFFFFFF - 4 * slot) = 4 * slot := by omega
    simp [hoffset, hslot]

end DataSegment
end Mips
