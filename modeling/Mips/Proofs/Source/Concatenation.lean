import Mips.Proofs.Source.Listing

/-!
# Listings of source texts one behind the other

Two source texts with a line feed between them have the lines of the first and then those
of the second, whatever either of them ends with.  So their listing is that of the first
and behind it that of the second, with line numbers that count on
(`Listing.parse_append`).
-/
namespace Mips

/-- The same about the line that stands `n` lines further down. -/
def Located.renumbered {α : Type} (n : Nat) (located : Located α) : Located α :=
  { located with number := n + located.number }

section
variable {a b : String} {number : Nat} {text : List Char}

/-- The number of lines of a source text. -/
def numberOfLines (source : String) : Nat :=
  (source.toList.splitOn '\n').length

theorem splitOn_append :
    (a ++ "\n" ++ b).toList.splitOn '\n' = a.toList.splitOn '\n' ++ b.toList.splitOn '\n' := by
  have htoList : (a ++ "\n" ++ b).toList = a.toList ++ '\n' :: b.toList := by simp
  rw [htoList]
  simp only [List.splitOn_eq_splitOnP]
  exact List.splitOnP_append_cons _ _ (by decide)

/-- A line is one of the first text, or one of the second behind all those of the
first. -/
theorem isCleanLine_append : IsCleanLine (a ++ "\n" ++ b) number text ↔
    IsCleanLine a number text ∨ ∃ n, IsCleanLine b n text ∧ number = numberOfLines a + n := by
  unfold IsCleanLine numberOfLines
  rw [splitOn_append]
  constructor
  · rintro ⟨i, raw, hraw, rfl, rfl, hne⟩
    rcases Nat.lt_or_ge i (a.toList.splitOn '\n').length with hi | hi
    · rw [List.getElem?_append_left hi] at hraw
      exact .inl ⟨i, raw, hraw, rfl, rfl, hne⟩
    · rw [List.getElem?_append_right hi] at hraw
      exact .inr ⟨_, ⟨_, raw, hraw, rfl, rfl, hne⟩, by omega⟩
  · rintro (⟨i, raw, hraw, rfl, rfl, hne⟩ | ⟨_, ⟨i, raw, hraw, rfl, rfl, hne⟩, rfl⟩)
    · have hi := (List.getElem?_eq_some_iff.mp hraw).1
      exact ⟨i, raw, (List.getElem?_append_left hi).trans hraw, rfl, rfl, hne⟩
    · refine ⟨_ + i, raw, ?_, rfl, rfl, hne⟩
      rw [List.getElem?_append_right (Nat.le_add_right _ _), Nat.add_sub_cancel_left, hraw]

theorem IsCleanLine.le_numberOfLines (h : IsCleanLine a number text) :
    number ≤ numberOfLines a := by
  obtain ⟨i, raw, hraw, rfl, -, -⟩ := h
  exact (List.getElem?_eq_some_iff.mp hraw).1

theorem IsCleanLine.pos (h : IsCleanLine a number text) : 0 < number := by
  obtain ⟨i, raw, -, rfl, -, -⟩ := h
  exact Nat.succ_pos i

end

namespace Listing

variable {a b : String} {before after : Listing}

theorem transcribes_append (ha : before.Transcribes a) (hb : after.Transcribes b) :
    Transcribes (before ++ after.map (Located.renumbered (numberOfLines a))) (a ++ "\n" ++ b) where
  sound line hline := by
    rcases List.mem_append.mp hline with hline | hline
    · obtain ⟨hclean, hrenders⟩ := ha.sound line hline
      exact ⟨isCleanLine_append.mpr (.inl hclean), hrenders⟩
    · obtain ⟨line', hline', rfl⟩ := List.mem_map.mp hline
      obtain ⟨hclean, hrenders⟩ := hb.sound line' hline'
      exact ⟨isCleanLine_append.mpr (.inr ⟨_, hclean, rfl⟩), hrenders⟩
  complete number text hclean := by
    rcases isCleanLine_append.mp hclean with hfirst | ⟨n, hsecond, rfl⟩
    · obtain ⟨line, hline, hnumber⟩ := ha.complete number text hfirst
      exact ⟨line, List.mem_append_left _ hline, hnumber⟩
    · obtain ⟨line, hline, rfl⟩ := hb.complete n text hsecond
      exact ⟨_, List.mem_append_right _ (List.mem_map_of_mem hline), rfl⟩
  ordered := by
    refine List.pairwise_append.mpr ⟨ha.ordered, ?_, ?_⟩
    · exact List.pairwise_map.mpr (hb.ordered.imp fun hlt => Nat.add_lt_add_left hlt _)
    · intro line hline line' hline'
      obtain ⟨line', hmem, rfl⟩ := List.mem_map.mp hline'
      have hle := (ha.sound line hline).1.le_numberOfLines
      have hpos := (hb.sound line' hmem).1.pos
      exact Nat.lt_of_le_of_lt hle (Nat.lt_add_of_pos_right hpos)

/-- **The listing of two texts** with a line feed between them. -/
theorem parse_append (ha : parse a = .ok before) (hb : parse b = .ok after) :
    parse (a ++ "\n" ++ b) =
      .ok (before ++ after.map (Located.renumbered (numberOfLines a))) :=
  parse_eq_ok_iff.mpr
    (transcribes_append (transcribes_of_parse ha) (transcribes_of_parse hb))

end Listing
end Mips
