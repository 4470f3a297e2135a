import Mathlib.Data.List.Basic
import Mips.Memory.Data
import Mips.Proofs.Outcome

/-!
# What a data segment holds

A slot behind the end of a data segment reads as zero, so what a segment holds is a
function from slots to words, and `DataSegment.contents` lists where that function is not
zero (`DataSegment.contents_eq`).  Another word in a slot is another word under one address
and leaves the others alone (`DataSegment.read_set`).

A larger segment with the same words in it (`DataSegment.Extends`) serves every access that
the smaller one serves, in the same slot, and both still hold the same words after the same
store.
-/
namespace Mips.DataSegment

variable {data data' : DataSegment} {address : Address} {slot : Nat}

/-- There is nothing behind the end of a segment. -/
theorem get_of_size_le (h : data.size ≤ slot) : data.get slot = 0 := by
  unfold get
  rw [Array.getElem?_eq_none h]
  rfl

/-- A segment is nothing but its words. -/
theorem eq_of_words (h : data.words = data'.words) : data = data' := by
  cases data
  cases data'
  cases h
  rfl

/-- A segment starts with a zero in each of its words. -/
theorem zeroed_eq_ok_iff {size : Nat} : zeroed size = .ok data ↔
    IsSegmentSize size ∧ data.words = Array.replicate (size / 4) 0 := by
  unfold zeroed
  split
  · next hcapacity =>
    have hsize := (capacity?_eq_error_iff.mp hcapacity).1
    simp [hsize]
  · next hcapacity =>
    obtain ⟨hsize, rfl⟩ := capacity?_eq_ok_iff.mp hcapacity
    rw [Except.ok.injEq]
    constructor
    · rintro rfl
      exact ⟨hsize, rfl⟩
    · rintro ⟨-, hwords⟩
      exact eq_of_words hwords.symm

theorem exists_zeroed {size : Nat} (h : IsSegmentSize size) : ∃ data, zeroed size = .ok data := by
  have hmax := capacity?_le (capacity?_of_isSegmentSize h)
  refine ⟨⟨Array.replicate (size / 4) 0, ?_⟩, zeroed_eq_ok_iff.mpr ⟨h, rfl⟩⟩
  rwa [Array.size_replicate]

theorem size_of_zeroed {size : Nat} (h : zeroed size = .ok data) : data.size = size / 4 := by
  unfold DataSegment.size
  rw [(zeroed_eq_ok_iff.mp h).2]
  exact Array.size_replicate

theorem get_of_zeroed {size : Nat} (h : zeroed size = .ok data) (slot : Nat) :
    data.get slot = 0 := by
  unfold get
  rw [(zeroed_eq_ok_iff.mp h).2, Array.getElem?_replicate]
  split <;> rfl

theorem zipIdx_words (data : DataSegment) :
    data.words.toList.zipIdx = (List.range data.size).map fun i => (data.get i, i) := by
  refine List.ext_getElem? fun i => ?_
  rw [List.getElem?_zipIdx, List.getElem?_map, Array.getElem?_toList, Nat.zero_add]
  rcases Nat.lt_or_ge i data.size with hlt | hge
  · rw [List.getElem?_range hlt, Array.getElem?_eq_getElem hlt]
    simp [get, Array.getElem?_eq_getElem hlt]
  · rw [Array.getElem?_eq_none hge, List.getElem?_eq_none (by simpa using hge)]
    rfl

/-- **The words in use** are those in the slots that do not read as zero, as far as one
cares to look behind the end. -/
theorem contents_eq {n : Nat} (h : data.size ≤ n) : data.contents =
    ((List.range n).filter fun i => data.get i ≠ 0).map fun i => (dataAddress i, data.get i) := by
  obtain ⟨d, rfl⟩ := Nat.exists_eq_add_of_le h
  have hbehind : ((List.range d).map (data.size + ·)).filter (fun i => data.get i ≠ 0) = [] := by
    refine List.filter_eq_nil_iff.mpr fun i hi => ?_
    obtain ⟨j, -, rfl⟩ := List.mem_map.mp hi
    simp [get_of_size_le (Nat.le_add_right data.size j)]
  unfold contents
  rw [zipIdx_words, List.range_add, List.filter_append, hbehind, List.append_nil,
    List.filter_map, List.map_map]
  rfl

/-! ## Words under their addresses -/

theorem read_eq_of_slot {slot : Nat} (h : data.slot address = .ok slot) :
    data.read address = .ok (data.get slot) := by
  unfold read
  rw [h]
  rfl

theorem read_eq_of_error {fault : AccessFault} (h : data.slot address = .error fault) :
    data.read address = .error fault := by
  unfold read
  rw [h]
  rfl

/-- The slots of the data segment stay where they are. -/
theorem slot_set (slot : Nat) (value : Word) :
    (data.set slot value).slot address = data.slot address := by
  unfold DataSegment.slot
  rw [size_set]

/-- Another word in a slot is another word under one address. -/
theorem read_set {slot : Nat} (h : data.slot address = .ok slot) (value : Word)
    (other : Address) : (data.set slot value).read other =
      if other = address then .ok value else data.read other := by
  obtain ⟨hslot, haddress⟩ := slot_eq_ok_iff.mp h
  -- slots are looked up in the segment as it was, which has the same ones
  cases hother : data.slot other with
  | error fault =>
    have hne : other ≠ address := by
      rintro rfl
      rw [h] at hother
      cases hother
    rw [if_neg hne, read_eq_of_error ((slot_set slot value).trans hother),
      read_eq_of_error hother]
  | ok slot' =>
    rw [read_eq_of_slot ((slot_set slot value).trans hother), read_eq_of_slot hother, get_set]
    by_cases heq : other = address
    · subst heq
      cases h.symm.trans hother
      rw [if_pos ⟨rfl, hslot⟩, if_pos rfl]
    · have hne : slot ≠ slot' := by
        rintro rfl
        exact heq ((slot_eq_ok_iff.mp hother).2.trans haddress.symm)
      rw [if_neg fun hc => hne hc.1, if_neg heq]

/-! ## Larger segments -/

/-- `data'` is at least as large as `data` and holds the same words. -/
structure Extends (data' data : DataSegment) : Prop where
  size_le : data.size ≤ data'.size
  get_eq : ∀ slot, data'.get slot = data.get slot

theorem Extends.slot_eq_ok (h : data'.Extends data) (hslot : data.slot address = .ok slot) :
    data'.slot address = .ok slot := by
  obtain ⟨hlt, haddress⟩ := slot_eq_ok_iff.mp hslot
  exact slot_eq_ok_iff.mpr ⟨Nat.lt_of_lt_of_le hlt h.size_le, haddress⟩

theorem Extends.read_eq_ok (h : data'.Extends data) {value : Word}
    (hread : data.read address = .ok value) : data'.read address = .ok value := by
  obtain ⟨slot, hslot, hvalue⟩ := map_eq_ok.mp hread
  exact map_eq_ok.mpr ⟨slot, h.slot_eq_ok hslot, (h.get_eq slot).trans hvalue⟩

/-- The same store in a slot of both segments. -/
theorem Extends.set (h : data'.Extends data) (hslot : slot < data.size) (value : Word) :
    (data'.set slot value).Extends (data.set slot value) where
  size_le := by
    rw [size_set, size_set]
    exact h.size_le
  get_eq other := by
    rw [get_set, get_set, h.get_eq]
    simp only [hslot, Nat.lt_of_lt_of_le hslot h.size_le]

theorem Extends.contents_eq (h : data'.Extends data) : data'.contents = data.contents := by
  rw [DataSegment.contents_eq (Nat.le_refl data'.size), DataSegment.contents_eq h.size_le]
  simp only [h.get_eq]

end Mips.DataSegment
