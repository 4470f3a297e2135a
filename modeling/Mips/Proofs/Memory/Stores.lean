import Mathlib.Data.List.Induction
import Mips.Proofs.Memory.Data

/-!
# A data segment is a map

What has been done to a data segment is a list of changes, each a store at some address,
which can fail, or the clearing of the whole segment (`DataSegment.after`).  What a map
from addresses to words would hold after these changes can be told from the list alone
(`DataSegment.lastStored`).  A segment holds the same, however stores that succeed and
stores that fail come one after the other (`DataSegment.get_after`), because two addresses
never share a slot and an address without a slot changes none.

`DataSegment.Represents` collects what a segment answers if it is such a map, and
`DataSegment.represents_lastStored` says that it always is.
-/
namespace Mips.DataSegment

/-- What can change a data segment. -/
inductive Change where
  | store (address : Address) (value : Word)
  | clear
deriving DecidableEq

/-- The segment after a change.  A store that fails leaves the segment as it is. -/
def change (data : DataSegment) : Change → DataSegment
  | .store address value => (data.write address value).toOption.getD data
  | .clear => data.cleared

/-- The segment after changes, the first of the list first. -/
def after (data : DataSegment) (changes : List Change) : DataSegment :=
  changes.foldl change data

/-- The value of the latest store at an address, zero if there is none since the segment
was cleared.  The changes are given in reverse, the latest one first.  At the address of a
slot no store fails, so the latest one there is also the latest that succeeded. -/
def lastStored (address : Address) : List Change → Word
  | [] => 0
  | .clear :: _ => 0
  | .store address' value :: earlier =>
    if address' = address then value else lastStored address earlier

/-- An address of one of `n` slots, counted down from `dataBase`. -/
def IsSlotAddress (n : Nat) (address : Address) : Prop :=
  ∃ i < n, address.toNat + 4 * i = dataBase.toNat

/-- Why a segment of `n` words denies an address. -/
inductive Denies (n : Nat) (address : Address) : AccessFault → Prop
  | misaligned (h : (dataBase.toNat - address.toNat) % 4 ≠ 0) :
      Denies n address (.misaligned .data address)
  | outOfRange (haligned : (dataBase.toNat - address.toNat) % 4 = 0)
      (h : ¬ IsSlotAddress n address) : Denies n address (.outOfRange .data address)

/-- A segment of `n` words answers as a map from addresses to words does. -/
structure Represents (data : DataSegment) (n : Nat) (word : Address → Word) : Prop where
  /-- A load at the address of a slot gives the word of the map, and no other load
  succeeds. -/
  read_ok : ∀ address value, data.read address = .ok value ↔
    IsSlotAddress n address ∧ value = word address
  read_error : ∀ address fault, data.read address = .error fault ↔ Denies n address fault
  /-- Stores succeed where loads do, and fail as loads do. -/
  write_ok : ∀ address value, (∃ data', data.write address value = .ok data') ↔
    IsSlotAddress n address
  write_error : ∀ address value fault, data.write address value = .error fault ↔
    Denies n address fault
  /-- What is listed is what can be loaded and is not zero. -/
  mem_contents : ∀ address value, (address, value) ∈ data.contents ↔
    data.read address = .ok value ∧ value ≠ 0
  /-- The highest address is listed first, and none twice. -/
  contents_sorted : data.contents.Pairwise fun entry entry' => entry'.1 < entry.1

variable {data : DataSegment} {address : Address}

/-! ## Addresses with a slot and without -/

theorem toNat_dataBase : dataBase.toNat = 0xFFFFFFFF := rfl

theorem isSlotAddress_iff :
    IsSlotAddress data.size address ↔ ∃ slot, data.slot address = .ok slot := by
  have hmax : data.size ≤ 262144 := data.size_le
  refine exists_congr fun slot => ?_
  rw [slot_eq_ok_iff]
  refine and_congr_right fun hslot => ?_
  rw [← UInt32.toNat_inj, toNat_dataAddress (by omega), toNat_dataBase]
  omega

theorem slot_of_denies {fault : AccessFault} (h : Denies data.size address fault) :
    data.slot address = .error fault := by
  have haddress := address.toNat_lt
  unfold DataSegment.slot
  rw [toNat_dataBase_sub]
  cases h with
  | misaligned h => exact if_pos h
  | outOfRange haligned h =>
    rw [toNat_dataBase] at haligned
    have hbehind : ¬ (0xFFFFFFFF - address.toNat) / 4 < data.size := by
      intro hlt
      refine h ⟨_, hlt, ?_⟩
      rw [toNat_dataBase]
      omega
    dsimp only
    rw [if_neg (not_not_intro haligned), if_neg hbehind]

/-- There is a reason for every address without a slot. -/
theorem exists_denies {n : Nat} (h : ¬ IsSlotAddress n address) :
    ∃ fault, Denies n address fault := by
  by_cases haligned : (dataBase.toNat - address.toNat) % 4 = 0
  · exact ⟨_, .outOfRange haligned h⟩
  · exact ⟨_, .misaligned haligned⟩

theorem slot_eq_error_iff {fault : AccessFault} :
    data.slot address = .error fault ↔ Denies data.size address fault := by
  constructor
  · intro h
    have hnone : ¬ IsSlotAddress data.size address := by
      rw [isSlotAddress_iff]
      rintro ⟨slot, hslot⟩
      rw [h] at hslot
      cases hslot
    obtain ⟨fault', hfault⟩ := exists_denies hnone
    have heq : fault = fault' := Except.error.inj (h.symm.trans (slot_of_denies hfault))
    exact heq ▸ hfault
  · exact slot_of_denies

/-! ## One change -/

section
-- taken apart, the slot of an address would be a long computation with 32-bit numbers
attribute [local irreducible] slot

theorem write_eq : @write = fun data address value =>
    match data.slot address with
    | .error fault => .error fault
    | .ok slot => .ok (data.set slot value) :=
  rfl

end

/-- A store looks up the slot of its address and puts the value there. -/
theorem write_eq_map (data : DataSegment) (address : Address) (value : Word) :
    data.write address value = (data.slot address).map (data.set · value) := by
  rw [write_eq]
  beta_reduce
  generalize data.slot address = result
  cases result <;> rfl

theorem exists_write_iff {value : Word} : (∃ data', data.write address value = .ok data') ↔
    IsSlotAddress data.size address := by
  rw [isSlotAddress_iff, write_eq_map]
  simp only [map_eq_ok]
  constructor
  · rintro ⟨_, slot, hslot, -⟩
    exact ⟨slot, hslot⟩
  · rintro ⟨slot, hslot⟩
    exact ⟨_, slot, hslot, rfl⟩

theorem write_eq_error_iff {value : Word} {fault : AccessFault} :
    data.write address value = .error fault ↔ Denies data.size address fault := by
  rw [← slot_eq_error_iff, write_eq_map]
  exact map_eq_error

theorem change_store_of_slot {slot : Nat} (h : data.slot address = .ok slot) (value : Word) :
    data.change (.store address value) = data.set slot value := by
  show (data.write address value).toOption.getD data = _
  rw [write_eq_map, h]
  rfl

theorem change_store_of_error {fault : AccessFault} (h : data.slot address = .error fault)
    (value : Word) : data.change (.store address value) = data := by
  show (data.write address value).toOption.getD data = _
  rw [write_eq_map, h]
  rfl

@[simp] theorem size_change (data : DataSegment) (c : Change) :
    (data.change c).size = data.size := by
  cases c with
  | clear => exact size_cleared data
  | store address value =>
    cases h : data.slot address with
    | ok slot => rw [change_store_of_slot h, size_set]
    | error fault => rw [change_store_of_error h]

theorem get_cleared (data : DataSegment) (slot : Nat) : data.cleared.get slot = 0 := by
  unfold get cleared
  rw [Array.getElem?_replicate]
  split <;> rfl

/-- A store at an address is seen in the slot of that address and in no other. -/
theorem get_change_store {slot : Nat} (hslot : slot < data.size) (value : Word) :
    (data.change (.store address value)).get slot =
      if address = dataAddress slot then value else data.get slot := by
  have hiff : data.slot address = .ok slot ↔ address = dataAddress slot := by
    rw [slot_eq_ok_iff]
    exact and_iff_right hslot
  cases h : data.slot address with
  | ok slot' =>
    rw [change_store_of_slot h, get_set]
    rw [h, Except.ok.injEq] at hiff
    have hslot' : slot' < data.size := (slot_eq_ok_iff.mp h).1
    simp only [hiff, hslot', and_true]
  | error fault =>
    rw [change_store_of_error h]
    rw [h] at hiff
    rw [if_neg fun heq => nomatch hiff.mpr heq]

/-! ## Any changes -/

theorem after_concat (changes : List Change) (c : Change) :
    data.after (changes ++ [c]) = (data.after changes).change c := by
  simp [after]

theorem size_after (data : DataSegment) (changes : List Change) :
    (data.after changes).size = data.size := by
  induction changes using List.reverseRecOn with
  | nil => rfl
  | append_singleton changes c ih => rw [after_concat, size_change, ih]

/-- **A slot holds what was stored last under its address**, if it held a zero at first. -/
theorem get_after (hzero : ∀ slot, data.get slot = 0) (changes : List Change) {slot : Nat}
    (hslot : slot < data.size) :
    (data.after changes).get slot = lastStored (dataAddress slot) changes.reverse := by
  induction changes using List.reverseRecOn with
  | nil => exact hzero slot
  | append_singleton changes c ih =>
    rw [after_concat, List.reverse_concat]
    cases c with
    | clear => exact get_cleared _ slot
    | store address value =>
      rw [get_change_store ((size_after data changes).symm ▸ hslot), ih]
      rfl

/-! ## The map -/

/-- The listing goes down from the highest address. -/
theorem contents_sorted (data : DataSegment) :
    data.contents.Pairwise fun entry entry' => entry'.1 < entry.1 := by
  have hmax : data.size ≤ 262144 := data.size_le
  rw [contents_eq (Nat.le_refl data.size), List.pairwise_map]
  refine List.Pairwise.filter _ (List.Pairwise.imp_of_mem ?_ List.pairwise_lt_range)
  intro slot slot' hslot hslot' hlt
  rw [List.mem_range] at hslot hslot'
  rw [UInt32.lt_iff_toNat_lt, toNat_dataAddress (by omega), toNat_dataAddress (by omega)]
  omega

theorem mem_contents_iff {value : Word} : (address, value) ∈ data.contents ↔
    data.read address = .ok value ∧ value ≠ 0 := by
  rw [contents_eq (Nat.le_refl data.size), List.mem_map]
  constructor
  · rintro ⟨slot, hmem, heq⟩
    obtain ⟨rfl, rfl⟩ := Prod.mk.inj heq
    obtain ⟨hslot, hne⟩ := List.mem_filter.mp hmem
    rw [List.mem_range] at hslot
    exact ⟨read_eq_of_slot (slot_eq_ok_iff.mpr ⟨hslot, rfl⟩), of_decide_eq_true hne⟩
  · rintro ⟨hread, hne⟩
    obtain ⟨slot, hslot, rfl⟩ := map_eq_ok.mp hread
    obtain ⟨hlt, rfl⟩ := slot_eq_ok_iff.mp hslot
    exact ⟨slot, List.mem_filter.mpr ⟨List.mem_range.mpr hlt, decide_eq_true hne⟩, rfl⟩

/-- A segment is the map of what its slots hold. -/
theorem represents {word : Address → Word}
    (h : ∀ slot < data.size, data.get slot = word (dataAddress slot)) :
    data.Represents data.size word where
  read_ok address value := by
    rw [isSlotAddress_iff]
    constructor
    · intro hread
      obtain ⟨slot, hslot, rfl⟩ := map_eq_ok.mp hread
      obtain ⟨hlt, rfl⟩ := slot_eq_ok_iff.mp hslot
      exact ⟨⟨slot, hslot⟩, h slot hlt⟩
    · rintro ⟨⟨slot, hslot⟩, rfl⟩
      obtain ⟨hlt, rfl⟩ := slot_eq_ok_iff.mp hslot
      rw [read_eq_of_slot hslot, h slot hlt]
  read_error address fault := map_eq_error.trans slot_eq_error_iff
  write_ok address value := exists_write_iff
  write_error address value fault := write_eq_error_iff
  mem_contents address value := mem_contents_iff
  contents_sorted := contents_sorted data

/-- **A data segment is a faithful map.**  For every size that a segment can have there is a
segment of zeros, and after any stores and clearings of it, with any addresses and values, a
load gives what was stored last at its address since the last clearing, and zero if nothing
was.  Loads and stores succeed exactly at the addresses of slots; a store that fails
changes nothing; and the words other than zero are listed under their addresses, the
highest first. -/
theorem represents_lastStored {size : Nat} (hsize : IsSegmentSize size) :
    ∃ data, zeroed size = .ok data ∧ ∀ changes,
      (data.after changes).Represents (size / 4) (lastStored · changes.reverse) ∧
      ∀ address value fault, (data.after changes).write address value = .error fault →
        data.after (changes ++ [.store address value]) = data.after changes := by
  obtain ⟨data, hdata⟩ := exists_zeroed hsize
  refine ⟨data, hdata, fun changes => ⟨?_, fun address value fault hfault => ?_⟩⟩
  · have hcapacity : (data.after changes).size = size / 4 :=
      (size_after data changes).trans (size_of_zeroed hdata)
    rw [← hcapacity]
    refine represents fun slot hslot => get_after (get_of_zeroed hdata) changes ?_
    rwa [size_after] at hslot
  · rw [after_concat]
    exact change_store_of_error (slot_eq_error_iff.mpr (write_eq_error_iff.mp hfault)) value

theorem represents_lastStored_over_two_words :
    ∃ data, zeroed 8 = .ok data ∧
      (data.after [.store 0xFFFFFFFF 7, .clear, .store 0xFFFFFFFB 1, .store 0xFFFFFFFB 2,
        .store 0xFFFFFFFA 3, .store 0xFFFFFFF7 4]).read 0xFFFFFFFB = .ok 2 ∧
      (data.after [.store 0xFFFFFFFF 7, .clear]).read 0xFFFFFFFF = .ok 0 ∧
      data.read 3 = .error (.outOfRange .data 3) ∧
      data.read 0xFFFFFFFA = .error (.misaligned .data 0xFFFFFFFA) := by
  obtain ⟨data, hdata, hmap⟩ :=
    represents_lastStored (show IsSegmentSize 8 from ⟨by decide, by decide, by decide⟩)
  have hbehind : ¬ IsSlotAddress (8 / 4) 3 := by
    rintro ⟨i, hi, haddress⟩
    rw [toNat_dataBase, show (3 : Address).toNat = 3 from rfl] at haddress
    omega
  refine ⟨data, hdata, ((hmap _).1.read_ok _ _).mpr ⟨⟨1, by decide, rfl⟩, rfl⟩,
    ((hmap _).1.read_ok _ _).mpr ⟨⟨0, by decide, rfl⟩, rfl⟩,
    ((hmap []).1.read_error _ _).mpr (.outOfRange (by decide) hbehind),
    ((hmap []).1.read_error _ _).mpr (.misaligned (by decide))⟩

end Mips.DataSegment
