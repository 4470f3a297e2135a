import Mathlib.Data.List.Basic
import Mips.Proofs.Memory.Text

/-!
# Four views of a program

A text segment can be asked for the word at an address, whether an address lies within
the program, where the program ends, and for all its words at once.  Each answer is
computed in its own way, and all of them are about the same program: an address can be
read exactly if it is listed with a word, and exactly if it lies within the program on a
word boundary.  `TextSegment.Denies` says why an address cannot be read, and
`TextSegment.views_agree` puts the views together.
-/
namespace Mips.TextSegment

/-- Why an address cannot be read.  Above the start of the segment the alignment is looked
at first, even behind the program. -/
inductive Denies (text : TextSegment) (address : Address) : AccessFault → Prop
  | below (h : address.toNat < 0x400000) : Denies text address (.outOfRange .text address)
  | between (h : 0x400000 < address.toNat) (haligned : ¬ 4 ∣ address.toNat) :
      Denies text address (.misaligned .text address)
  | behind (h : 0x400000 + 4 * text.size ≤ address.toNat) (haligned : 4 ∣ address.toNat) :
      Denies text address (.outOfRange .text address)

variable {text : TextSegment} {address : Address} {word : Word}

/-! ## The listing -/

theorem contents_eq (text : TextSegment) : text.contents =
    text.words.toList.zipIdx.map fun (word, slot) => (textAddress slot, word) :=
  rfl

theorem words_of_contents (text : TextSegment) :
    text.contents.map Prod.snd = text.words.toList := by
  rw [contents_eq, List.map_map]
  exact List.zipIdx_map_fst 0 _

/-- The words are listed from the start of the segment upward, four bytes apart. -/
theorem addresses_of_contents (text : TextSegment) :
    (text.contents.map fun entry => entry.1.toNat) =
      (List.range text.size).map (0x400000 + 4 * ·) := by
  have hmax := text.size_le_maxCapacity
  have hslots : text.words.toList.zipIdx.map Prod.snd = List.range text.size := by
    rw [List.zipIdx_map_snd, Array.length_toList, List.range_eq_range']
    rfl
  rw [contents_eq, List.map_map, ← hslots, List.map_map]
  refine List.map_congr_left fun entry hentry => ?_
  have hslot : entry.2 < text.size := by
    apply List.mem_range.mp
    rw [← hslots]
    exact List.mem_map_of_mem hentry
  exact toNat_textAddress (by omega)

/-- What is listed is what can be read. -/
theorem mem_contents_iff : (address, word) ∈ text.contents ↔ text.read address = .ok word := by
  have hmax := text.size_le_maxCapacity
  rw [read_eq_ok_iff, contents_eq, List.mem_map]
  constructor
  · rintro ⟨⟨word', slot⟩, hmem, heq⟩
    obtain ⟨rfl, rfl⟩ := Prod.mk.inj heq
    have hword := List.mem_zipIdx_iff_getElem?.mp hmem
    rw [Array.getElem?_toList] at hword
    have hslot : slot < text.size := (Array.getElem?_eq_some_iff.mp hword).1
    exact ⟨slot, hword, toNat_textAddress (by omega)⟩
  · rintro ⟨slot, hword, haddress⟩
    have hslot : slot < text.size := (Array.getElem?_eq_some_iff.mp hword).1
    refine ⟨(word, slot), ?_, ?_⟩
    · rw [List.mem_zipIdx_iff_getElem?, Array.getElem?_toList]
      exact hword
    · rw [Prod.mk.injEq, ← UInt32.toNat_inj, toNat_textAddress (by omega)]
      exact ⟨haddress.symm, rfl⟩

/-! ## Addresses that can be read, and the others -/

theorem exists_read_iff : (∃ word, text.read address = .ok word) ↔
    text.contains address = true ∧ 4 ∣ address.toNat := by
  constructor
  · rintro ⟨word, hread⟩
    obtain ⟨i, hword, haddress⟩ := read_eq_ok_iff.mp hread
    have hi : i < text.size := (Array.getElem?_eq_some_iff.mp hword).1
    rw [contains_iff]
    omega
  · rintro ⟨hcontains, haligned⟩
    rcases read_of_contains hcontains with ⟨hmisaligned, -⟩ | ⟨i, word, -, -, hread⟩
    · omega
    · exact ⟨word, hread⟩

theorem read_of_denies {fault : AccessFault} (h : text.Denies address fault) :
    text.read address = .error fault := by
  cases h with
  | below h => exact read_of_lt h
  | between h haligned =>
    rw [read_of_le (Nat.le_of_lt h), if_pos (by omega)]
  | behind h haligned =>
    have hbehind : text.words.size ≤ (address.toNat - 0x400000) / 4 := by
      unfold size at h
      omega
    rw [read_of_le (by omega), if_neg (by omega), Array.getElem?_eq_none hbehind]

/-- There is a reason for every address that cannot be read. -/
theorem exists_denies (h : ¬ (text.contains address = true ∧ 4 ∣ address.toNat)) :
    ∃ fault, text.Denies address fault := by
  rw [contains_iff] at h
  by_cases hbelow : address.toNat < 0x400000
  · exact ⟨_, .below hbelow⟩
  · by_cases haligned : 4 ∣ address.toNat
    · exact ⟨_, .behind (by omega) haligned⟩
    · exact ⟨_, .between (by omega) haligned⟩

theorem read_eq_error_iff {fault : AccessFault} :
    text.read address = .error fault ↔ text.Denies address fault := by
  constructor
  · intro hread
    have hdenied : ¬ (text.contains address = true ∧ 4 ∣ address.toNat) := by
      intro h
      obtain ⟨word, hword⟩ := exists_read_iff.mpr h
      rw [hword] at hread
      cases hread
    obtain ⟨fault', hfault⟩ := exists_denies hdenied
    cases hread.symm.trans (read_of_denies hfault)
    exact hfault
  · exact read_of_denies

/-- **The views of a program agree.**  A program is loaded exactly if the size in bytes is
one that a segment can have and the program has no more words than that; of two faults the
size is reported.  A program that has been loaded is listed word for word from `textBase`
upward, its end address is the number that one expects, and for every address it is the
same whether it is listed, whether it can be read, and whether it lies within the program
on a word boundary. -/
theorem views_agree (program : Array Word) (size : Nat) :
    ((∃ text, load program size = .ok text) ↔
      IsSegmentSize size ∧ program.size ≤ size / 4) ∧
    (∀ e, load program size = .error e ↔
      ¬ IsSegmentSize size ∧ e = .invalidMemorySize size ∨
        IsSegmentSize size ∧ size / 4 < program.size ∧
          e = .programTooLarge program.size (size / 4)) ∧
    ∀ text, load program size = .ok text →
      text.size = program.size ∧
      text.contents.map Prod.snd = program.toList ∧
      (text.contents.map fun entry => entry.1.toNat) =
        (List.range program.size).map (textBase.toNat + 4 * ·) ∧
      text.endAddress.toNat = textBase.toNat + 4 * text.size ∧
      ∀ address,
        (∀ word, text.read address = .ok word ↔ (address, word) ∈ text.contents) ∧
        (text.contains address = true ↔
          textBase.toNat ≤ address.toNat ∧ address.toNat < textBase.toNat + 4 * text.size) ∧
        ((∃ word, text.read address = .ok word) ↔
          text.contains address = true ∧ 4 ∣ address.toNat) ∧
        ∀ fault, text.read address = .error fault ↔ text.Denies address fault := by
  refine ⟨exists_load_iff, fun e => load_eq_error_iff, fun text htext => ?_⟩
  have hwords : text.words = program := words_of_load htext
  have hsize : text.size = program.size := congrArg Array.size hwords
  refine ⟨hsize, ?_, ?_, text.toNat_endAddress, fun address => ?_⟩
  · rw [words_of_contents, hwords]
  · rw [addresses_of_contents, hsize, toNat_textBase]
  · exact ⟨fun word => mem_contents_iff.symm, contains_iff, exists_read_iff,
      fun fault => read_eq_error_iff⟩

theorem views_agree_of_three_words :
    ∃ text, load #[10, 20, 30] 16 = .ok text ∧ (0x400008, 30) ∈ text.contents ∧
      text.contains 0x40000A = true ∧
      text.read 0x40000C = .error (.outOfRange .text 0x40000C) ∧
      text.read 0x40000D = .error (.misaligned .text 0x40000D) ∧
      load #[10, 20, 30] 6 = .error (.invalidMemorySize 6) := by
  obtain ⟨hloads, -, hviews⟩ := views_agree #[10, 20, 30] 16
  obtain ⟨text, htext⟩ := hloads.mpr ⟨⟨by decide, by decide, by decide⟩, by decide⟩
  obtain ⟨hsize, -, -, -, haddresses⟩ := hviews text htext
  have hthree : text.size = 3 := hsize
  have hword : text.read 0x400008 = .ok 30 :=
    read_eq_ok_iff.mpr ⟨2, by rw [words_of_load htext]; rfl, rfl⟩
  refine ⟨text, htext, ((haddresses _).1 30).mp hword, (haddresses _).2.1.mpr ?_,
    ((haddresses _).2.2.2 _).mpr (.behind ?_ (by decide)),
    ((haddresses _).2.2.2 _).mpr (.between (by decide) (by decide)), ?_⟩
  · rw [hthree]
    decide
  · rw [hthree]
    decide
  · exact ((views_agree #[10, 20, 30] 6).2.1 _).mpr
      (.inl ⟨fun h => absurd h.2.1 (by decide), rfl⟩)

end Mips.TextSegment
