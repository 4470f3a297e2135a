import Mips.Proofs.Outcome
import Mips.Proofs.Source.Rendering
import Mips.Source.Grammar

/-!
# What reading a line accepts

Reading a line takes its tokens off the front one by one and is told of blanks only by
the places of tokens.  `Reading.Accepts` says the same of the text itself: after what has
been read, the rest of the line is taken and gives a certain line.
-/
namespace Mips

/-! ## Blanks in front of a token -/

section
variable {blanks text rest : List Char} {terminal : Terminal}

theorem dropWhile_isBlank_append (hblanks : Blanks blanks) (htext : terminal.Matches text) :
    (blanks ++ (text ++ rest)).dropWhile Text.isBlank = text ++ rest := by
  obtain ⟨c, text, rfl⟩ := List.exists_cons_of_ne_nil htext.ne_nil
  rw [List.dropWhile_append_of_pos hblanks, List.cons_append,
    List.dropWhile_cons_of_neg (htext.not_isBlank c List.mem_cons_self)]

theorem takeWhile_isBlank_append (hblanks : Blanks blanks) (htext : terminal.Matches text) :
    (blanks ++ (text ++ rest)).takeWhile Text.isBlank = blanks := by
  obtain ⟨c, text, rfl⟩ := List.exists_cons_of_ne_nil htext.ne_nil
  rw [List.takeWhile_append_of_pos hblanks, List.cons_append,
    List.takeWhile_cons_of_neg (htext.not_isBlank c List.mem_cons_self), List.append_nil]

end

theorem blanks_iff_dropWhile {cs : List Char} : Blanks cs ↔ cs.dropWhile Text.isBlank = [] := by
  rw [List.dropWhile_eq_nil_iff]
  rfl

theorem Text.byteSize_pos {cs : List Char} (h : cs ≠ []) : 0 < Text.byteSize cs := by
  obtain ⟨c, cs, rfl⟩ := List.exists_cons_of_ne_nil h
  exact Nat.add_pos_left c.utf8Size_pos _

namespace Reading

/-- The text `cs`, which starts at a place behind what has been read, completes it to a
line. -/
inductive Accepts : Reading → Nat → List Char → Line → Prop
  | finish {reading : Reading} {place : Nat} {blanks : List Char} {line : Line}
      (hblanks : Blanks blanks) (hline : reading.finish place = .ok line) :
      Accepts reading place blanks line
  | read {reading next : Reading} {place : Nat} {blanks text rest : List Char}
      {terminal : Terminal} {line : Line} (hblanks : Blanks blanks)
      (hlexeme : Lexeme.next? (text ++ rest) = some ⟨terminal, text, rest⟩)
      (hread : reading.read ⟨terminal, text, place + Text.byteSize blanks⟩ = .ok next)
      (hrest : Accepts next (place + Text.byteSize blanks + Text.byteSize text) rest line) :
      Accepts reading place (blanks ++ (text ++ rest)) line

variable {reading next : Reading} {place : Nat} {cs : List Char} {line : Line}

/-- The place of the end of a line shows only in messages. -/
theorem finish_eq_ok (place place' : Nat) (h : reading.finish place = .ok line) :
    reading.finish place' = .ok line := by
  cases reading with
  | start | offset | base | comma => cases h
  | name | labelled | mnemonic | operand | number => exact h

/-- Blanks take no token. -/
theorem accepts_of_blanks (hblanks : Blanks cs) (place' : Nat) :
    reading.Accepts place cs line ↔ reading.finish place' = .ok line := by
  constructor
  · intro h
    cases h with
    | finish _ hline => exact finish_eq_ok _ _ hline
    | read hskip hlexeme =>
      have hmatches := Lexeme.matches_of_next? hlexeme
      rw [blanks_iff_dropWhile, dropWhile_isBlank_append hskip hmatches] at hblanks
      exact absurd (List.append_eq_nil_iff.mp hblanks).1 hmatches.ne_nil
  · intro h
    exact .finish hblanks (finish_eq_ok _ _ h)

/-- A text that is not blank takes the token that its blanks stand in front of. -/
theorem accepts_of_dropWhile {c : Char} {rest : List Char}
    (hdrop : cs.dropWhile Text.isBlank = c :: rest) :
    reading.Accepts place cs line ↔ ∃ lexeme next, Lexeme.next? (c :: rest) = some lexeme ∧
      reading.read ⟨lexeme.terminal, lexeme.text,
        place + Text.byteSize (cs.takeWhile Text.isBlank)⟩ = .ok next ∧
      next.Accepts (place + Text.byteSize (cs.takeWhile Text.isBlank) +
        Text.byteSize lexeme.text) lexeme.rest line := by
  constructor
  · intro h
    cases h with
    | finish hblanks =>
      rw [blanks_iff_dropWhile.mp hblanks] at hdrop
      cases hdrop
    | read hskip hlexeme hread hrest =>
      have hmatches := Lexeme.matches_of_next? hlexeme
      rw [dropWhile_isBlank_append hskip hmatches] at hdrop
      rw [takeWhile_isBlank_append hskip hmatches, ← hdrop]
      exact ⟨_, _, hlexeme, hread, hrest⟩
  · rintro ⟨lexeme, next, hlexeme, hread, hrest⟩
    have hskip : Blanks (cs.takeWhile Text.isBlank) := fun c hc => List.mem_takeWhile_imp hc
    have happ := Lexeme.text_append_rest hlexeme
    rw [← happ] at hlexeme hdrop
    have haccepts := Accepts.read hskip hlexeme hread hrest
    rwa [← hdrop, List.takeWhile_append_dropWhile] at haccepts

/-- **The tokens of a text make a line exactly when the text is accepted.** -/
theorem ofTokens_readFrom {done : List Token} :
    Line.ofTokens (Tokens.readFrom place cs done) = .ok line ↔
      ∃ reading, done.reverse.foldlM Reading.read .start = .ok reading ∧
        reading.Accepts place cs line := by
  fun_induction Tokens.readFrom place cs done with
  | case1 place cs done hblank =>
    have hblanks : Blanks cs := blanks_iff_dropWhile.mpr hblank
    unfold Line.ofTokens
    rw [bind_eq_ok]
    exact exists_congr fun reading => and_congr_right fun _ => (accepts_of_blanks hblanks _).symm
  | case2 place cs done start c rest hblank hnext =>
    unfold Line.ofTokens
    rw [bind_eq_ok]
    simp only [accepts_of_dropWhile hblank, hnext, reduceCtorEq, false_and, exists_false,
      and_false]
  | case3 place cs done start c rest hblank lexeme hnext token ih =>
    have hlast : ∀ {before next : Reading}, [token].foldlM Reading.read before = .ok next ↔
        before.read token = .ok next := by
      intro before next
      simp only [List.foldlM_cons, List.foldlM_nil, bind_pure]
    rw [ih, List.reverse_cons, List.foldlM_append]
    simp only [accepts_of_dropWhile hblank, bind_eq_ok, hlast]
    constructor
    · rintro ⟨next, ⟨reading, hdone, hread⟩, hrest⟩
      exact ⟨reading, hdone, lexeme, next, hnext, hread, hrest⟩
    · rintro ⟨reading, hdone, lexeme', next, hnext', hread, hrest⟩
      cases hnext.symm.trans hnext'
      exact ⟨next, ⟨reading, hdone, hread⟩, hrest⟩

end Reading

theorem Line.parse_eq_ok_iff_accepts {cs : List Char} {line : Line} :
    Line.parse cs = .ok line ↔ Reading.Accepts .start 0 cs line := by
  unfold Line.parse Tokens.ofLine
  rw [Reading.ofTokens_readFrom]
  constructor
  · rintro ⟨_, ⟨⟩, h⟩
    exact h
  · intro h
    exact ⟨_, rfl, h⟩

end Mips
