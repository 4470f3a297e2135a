import Mips.Text.Blank

/-!
# Pieces between separators

The pieces of a text are what the library function cuts out of it, so its lines and words
can be reasoned about with the library's lemmas.
-/
namespace Mips.Text

theorem pieces_eq_splitOnP (isSeparator : Char → Bool) (cs : List Char) :
    pieces isSeparator cs = cs.splitOnP isSeparator := by
  induction cs with
  | nil => rfl
  | cons c cs ih =>
    rw [List.splitOnP_cons_eq_if_modifyHead, ← ih]
    unfold pieces
    simp only [List.foldr_cons, cut]
    split <;> rfl

theorem lines_eq_splitOn (cs : List Char) : lines cs = cs.splitOn '\n' := by
  rw [List.splitOn_eq_splitOnP, lines, pieces_eq_splitOnP]

theorem words_eq_splitOnP (cs : List Char) :
    words cs = (cs.splitOnP isBlank).filter (· ≠ []) := by
  rw [words, pieces_eq_splitOnP]

end Mips.Text
