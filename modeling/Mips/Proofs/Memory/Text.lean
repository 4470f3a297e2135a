import Mips.Memory.Text

/-!
# Where a program lies

A program is loaded as it is or not at all (`TextSegment.load_eq_ok_iff`).  No text
segment is larger than 1 MiB, so none of its addresses wraps around, and
`TextSegment.contains` is a comparison of numbers (`TextSegment.contains_iff`).
Reading and containing agree: an address that can be read is that of a slot
(`TextSegment.read_eq_ok_iff`), and an address within the program can be read unless
it lies between two slots (`TextSegment.read_of_contains`).
-/
namespace Mips

theorem toNat_textBase : textBase.toNat = 0x400000 := rfl

namespace TextSegment

variable {text : TextSegment} {address : Address}

/-! ## Loading -/

section
variable {program : Array Word} {size : Nat}

/-- A program that fits is taken over as it is. -/
theorem load_eq_ok_iff : load program size = .ok text ↔
    IsSegmentSize size ∧ text.words = program ∧ text.capacity = size / 4 := by
  unfold load
  split
  · next hcapacity =>
    have hsize := (capacity?_eq_error_iff.mp hcapacity).1
    simp [hsize]
  · next hcapacity =>
    obtain ⟨hsize, rfl⟩ := capacity?_eq_ok_iff.mp hcapacity
    by_cases hfits : program.size ≤ size / 4
    · rw [dif_pos hfits, Except.ok.injEq]
      constructor
      · rintro rfl
        exact ⟨hsize, rfl, rfl⟩
      · rintro ⟨-, rfl, hcap⟩
        cases text
        cases hcap
        rfl
    · rw [dif_neg hfits]
      -- the text segment itself says that its words fit
      have hnot : ¬ (text.words = program ∧ text.capacity = size / 4) := by
        rintro ⟨rfl, hcap⟩
        exact hfits (hcap ▸ text.size_le)
      simp [hnot]

theorem exists_load_iff : (∃ text, load program size = .ok text) ↔
    IsSegmentSize size ∧ program.size ≤ size / 4 := by
  constructor
  · rintro ⟨text, h⟩
    obtain ⟨hsize, rfl, hcap⟩ := load_eq_ok_iff.mp h
    exact ⟨hsize, hcap ▸ text.size_le⟩
  · rintro ⟨hsize, hfits⟩
    have hmax := capacity?_le (capacity?_of_isSegmentSize hsize)
    exact ⟨⟨program, size / 4, hfits, hmax⟩, load_eq_ok_iff.mpr ⟨hsize, rfl, rfl⟩⟩

theorem words_of_load (h : load program size = .ok text) : text.words = program :=
  (load_eq_ok_iff.mp h).2.1

/-- A size that no segment has is reported before a program that is too long. -/
theorem load_eq_error_iff {e : LoadError} : load program size = .error e ↔
    ¬ IsSegmentSize size ∧ e = .invalidMemorySize size ∨
      IsSegmentSize size ∧ size / 4 < program.size ∧
        e = .programTooLarge program.size (size / 4) := by
  unfold load
  split
  · next hcapacity =>
    obtain ⟨hsize, rfl⟩ := capacity?_eq_error_iff.mp hcapacity
    simp [hsize, eq_comm]
  · next hcapacity =>
    obtain ⟨hsize, rfl⟩ := capacity?_eq_ok_iff.mp hcapacity
    by_cases hfits : program.size ≤ size / 4
    · simp [hsize, hfits, Nat.not_lt.mpr hfits]
    · simp [hsize, hfits, Nat.lt_of_not_le hfits, eq_comm]

end

/-! ## Addresses -/

theorem size_le_maxCapacity (text : TextSegment) : text.size ≤ 0x40000 :=
  Nat.le_trans text.size_le text.capacity_le

theorem toNat_endAddress (text : TextSegment) :
    text.endAddress.toNat = 0x400000 + 4 * text.size := by
  have h := text.size_le_maxCapacity
  exact toNat_textAddress (by omega)

/-- The program occupies the addresses from `textBase` to the end address. -/
theorem contains_iff : text.contains address = true ↔
    0x400000 ≤ address.toNat ∧ address.toNat < 0x400000 + 4 * text.size := by
  unfold contains
  rw [Bool.and_eq_true, decide_eq_true_iff, decide_eq_true_iff, UInt32.le_iff_toNat_le,
    UInt32.lt_iff_toNat_lt, toNat_endAddress, toNat_textBase]

/-- The distance of an address from the start of the segment. -/
theorem toNat_sub_textBase (h : 0x400000 ≤ address.toNat) :
    (address - textBase).toNat = address.toNat - 0x400000 :=
  UInt32.toNat_sub_of_le _ _ (UInt32.le_iff_toNat_le.mpr h)

theorem read_of_lt (h : address.toNat < 0x400000) :
    text.read address = .error (.outOfRange .text address) :=
  if_pos (UInt32.lt_iff_toNat_lt.mpr h)

/-- Reading at or above the start of the segment. -/
theorem read_of_le (h : 0x400000 ≤ address.toNat) : text.read address =
    if address.toNat % 4 ≠ 0 then .error (.misaligned .text address)
    else match text.words[(address.toNat - 0x400000) / 4]? with
      | some word => .ok word
      | none => .error (.outOfRange .text address) := by
  have hnot : ¬ address < textBase := by
    rw [UInt32.lt_iff_toNat_lt, toNat_textBase]
    omega
  have hmod : (address.toNat - 0x400000) % 4 = address.toNat % 4 := by omega
  unfold read
  rw [if_neg hnot, toNat_sub_textBase h]
  dsimp only
  by_cases haligned : address.toNat % 4 = 0
  · rw [if_neg (not_not_intro haligned)]
    exact if_neg (not_not_intro (hmod.trans haligned))
  · rw [if_pos haligned]
    exact if_pos (by rwa [hmod])

/-- **Every word that can be read is in a slot**, and the address is that of the
slot. -/
theorem read_eq_ok_iff {word : Word} : text.read address = .ok word ↔
    ∃ i, text.words[i]? = some word ∧ address.toNat = 0x400000 + 4 * i := by
  by_cases h : 0x400000 ≤ address.toNat
  · rw [read_of_le h]
    constructor
    · intro hread
      split at hread
      · cases hread
      · next haligned =>
        split at hread
        · next hword =>
          cases hread
          exact ⟨_, hword, by omega⟩
        · cases hread
    · rintro ⟨i, hi, haddress⟩
      have hslot : (address.toNat - 0x400000) / 4 = i := by omega
      rw [if_neg (by omega), hslot, hi]
  · rw [read_of_lt (by omega)]
    constructor
    · intro hread
      cases hread
    · rintro ⟨i, -, haddress⟩
      omega

/-- **An address within the program can be read** unless it lies between two
slots. -/
theorem read_of_contains (h : text.contains address = true) :
    (address.toNat % 4 ≠ 0 ∧ text.read address = .error (.misaligned .text address)) ∨
      ∃ i word, text.words[i]? = some word ∧ address.toNat = 0x400000 + 4 * i ∧
        text.read address = .ok word := by
  obtain ⟨hlow, hhigh⟩ := contains_iff.mp h
  by_cases haligned : address.toNat % 4 = 0
  · right
    have hi : (address.toNat - 0x400000) / 4 < text.words.size := by
      unfold size at hhigh
      omega
    have hword := Array.getElem?_eq_getElem hi
    have haddress : address.toNat = 0x400000 + 4 * ((address.toNat - 0x400000) / 4) := by
      omega
    exact ⟨_, _, hword, haddress, read_eq_ok_iff.mpr ⟨_, hword, haddress⟩⟩
  · left
    rw [read_of_le hlow, if_pos haligned]
    exact ⟨haligned, rfl⟩

end TextSegment
end Mips
