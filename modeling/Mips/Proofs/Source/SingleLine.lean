import Mips.Proofs.Source.Listing

/-!
# Source texts of a single line

No rendering of a line has a blank at either end (`Line.Renders.trim_eq`).  So a rendering
without line feeds and comment marks (`Text.IsPlain`), taken as a source text of its own,
is listed as that one line (`Listing.parse_of_renders`).
-/
namespace Mips

/-! ## The two ends of a rendering -/

namespace Text

/-- The text begins and ends with a character that is not blank. -/
structure IsTight (cs : List Char) : Prop where
  first : ∃ c rest, cs = c :: rest ∧ ¬ isBlank c
  last : ∃ front c, cs = front ++ [c] ∧ ¬ isBlank c

namespace IsTight

variable {front middle back cs : List Char}

/-- Only the ends of a text matter. -/
theorem append (hfront : IsTight front) (hback : IsTight back) :
    IsTight (front ++ (middle ++ back)) where
  first := by
    obtain ⟨c, rest, rfl, hc⟩ := hfront.first
    exact ⟨c, rest ++ (middle ++ back), rfl, hc⟩
  last := by
    obtain ⟨rest, c, rfl, hc⟩ := hback.last
    exact ⟨front ++ (middle ++ rest), c, by simp, hc⟩

theorem of_matches {terminal : Terminal} (h : terminal.Matches cs) : IsTight cs where
  first := by
    obtain ⟨c, rest, rfl⟩ := List.exists_cons_of_ne_nil h.ne_nil
    exact ⟨c, rest, rfl, h.not_isBlank c List.mem_cons_self⟩
  last := ⟨cs.dropLast, cs.getLast h.ne_nil, (List.dropLast_append_getLast h.ne_nil).symm,
    h.not_isBlank _ (List.getLast_mem h.ne_nil)⟩

theorem trim_eq (h : IsTight cs) : trim cs = cs := by
  have hdrop : ∀ {c : Char} {rest : List Char}, ¬ isBlank c →
      (c :: rest).dropWhile isBlank = c :: rest := fun hc => by
    rw [List.dropWhile_cons_of_neg hc]
  obtain ⟨c, rest, hfirst, hc⟩ := h.first
  obtain ⟨front, c', hlast, hc'⟩ := h.last
  have hfront : cs.dropWhile isBlank = cs := by rw [hfirst, hdrop hc]
  have hback : cs.reverse.dropWhile isBlank = cs.reverse := by
    rw [hlast, List.reverse_concat, hdrop hc']
  rw [trim, hfront, hback, List.reverse_reverse]

end IsTight
end Text

open Text (IsTight)

theorem IsNumber.isTight {text : List Char} (h : IsNumber text) : IsTight text := by
  rcases h with h | h
  · exact .of_matches h
  · exact .of_matches h

theorem Operand.Renders.isTight {operand : Operand} {text : List Char}
    (h : operand.Renders text) : IsTight text := by
  cases h with
  | register hregister => exact .of_matches hregister.matches
  | number htext => exact htext.isTight
  | label hname => exact .of_matches hname
  | @offset base text front before token after htext =>
    have happ : text ++ (front ++ '(' :: (before ++ (token ++ (after ++ [')'])))) =
        text ++ (front ++ '(' :: (before ++ (token ++ after)) ++ [')']) := by simp
    rw [happ]
    exact htext.isTight.append (.of_matches .closeParen)

theorem Operand.Tail.isTight_append {operands : List Operand} {rest first : List Char}
    (h : Operand.Tail operands rest) (hfirst : IsTight first) : IsTight (first ++ rest) := by
  induction h generalizing first with
  | nil => rwa [List.append_nil]
  | cons hseparator htext hrest ih => exact hfirst.append (ih htext.isTight)

theorem Statement.Renders.isTight {statement : Statement} {text : List Char}
    (h : statement.Renders text) : IsTight text := by
  cases h with
  | bare hname => exact .of_matches hname
  | operands hname hne hgap hfirst hrest =>
    exact (IsTight.of_matches hname).append (hrest.isTight_append hfirst.isTight)

theorem Line.Renders.isTight {line : Line} {text : List Char} (h : line.Renders text) :
    IsTight text := by
  cases h with
  | label hname => exact (IsTight.of_matches hname).append (.of_matches .colon)
  | statement htext => exact htext.isTight
  | @labelled name before after text content hname hbefore hafter htext =>
    have happ : name ++ (before ++ ':' :: (after ++ text)) =
        name ++ (before ++ ':' :: after ++ text) := by simp
    rw [happ]
    exact (IsTight.of_matches hname).append htext.isTight

/-- **No rendering has a blank at either end.** -/
theorem Line.Renders.trim_eq {line : Line} {text : List Char} (h : line.Renders text) :
    Text.trim text = text :=
  h.isTight.trim_eq

/-! ## Plain texts -/

namespace Text

/-- The text has no line feed and no comment mark in it. -/
def IsPlain (cs : List Char) : Prop :=
  '\n' ∉ cs ∧ '#' ∉ cs

instance : DecidablePred IsPlain := fun cs =>
  inferInstanceAs (Decidable ('\n' ∉ cs ∧ '#' ∉ cs))

theorem isPlain_append {a b : List Char} : IsPlain (a ++ b) ↔ IsPlain a ∧ IsPlain b := by
  simp only [IsPlain, List.mem_append, not_or]
  exact and_and_and_comm

end Text

/-- No token has a line feed or a comment mark in it. -/
theorem Terminal.Matches.isPlain {terminal : Terminal} {text : List Char}
    (h : terminal.Matches text) : Text.IsPlain text := by
  refine ⟨fun hmem => h.not_isBlank _ hmem (by decide), ?_⟩
  have hpart : ∀ {cs : List Char}, (∀ c ∈ cs, Text.isNamePart c) → '#' ∉ cs := fun hcs hmem =>
    absurd (hcs _ hmem) (by decide)
  have hsigned : ∀ {sign : List Char}, IsSign sign → '#' ∉ sign := by
    rintro _ (rfl | rfl) <;> decide
  cases h with
  | openParen | closeParen | comma | colon => decide
  | register _ hname =>
    have hrest := hpart fun c hc => Text.isNamePart_of_isAlphanumeric (hname c hc)
    exact List.not_mem_cons_of_ne_of_not_mem (by decide) hrest
  | identifier hfirst hrest =>
    exact hpart (List.forall_mem_cons.mpr ⟨Text.isNamePart_of_isNameStart hfirst, hrest⟩)
  | decimal hsign _ hdigits =>
    have hrest := hpart fun c hc => Text.isNamePart_of_isDigit (hdigits c hc)
    exact List.not_mem_append (hsigned hsign) hrest
  | @hexadecimal sign digits x hsign hx _ hdigits =>
    have hrest := hpart fun c hc => Text.isNamePart_of_isHexDigit (hdigits c hc)
    have hx' : '#' ≠ x := by
      rcases hx with rfl | rfl <;> decide
    exact List.not_mem_append (hsigned hsign)
      (List.not_mem_cons_of_ne_of_not_mem (by decide)
        (List.not_mem_cons_of_ne_of_not_mem hx' hrest))

/-! ## Their listings -/

theorem cleanLine_of_renders {line : Line} {text : List Char} (h : line.Renders text)
    (hplain : Text.IsPlain text) : cleanLine text = text := by
  have hkept : text.takeWhile (· ≠ '#') = text :=
    List.takeWhile_eq_self_iff.mpr fun c hc =>
      decide_eq_true fun heq => hplain.2 (heq ▸ hc)
  rw [cleanLine, hkept, h.trim_eq]

/-- **A rendering on a single line is listed as what it renders.** -/
theorem Listing.parse_of_renders {source : String} {line : Line}
    (h : line.Renders source.toList) (hplain : Text.IsPlain source.toList) :
    Listing.parse source = .ok [⟨1, source, line⟩] := by
  have hlines : source.toList.splitOn '\n' = [source.toList] :=
    List.splitOn_eq_singleton hplain.1
  have hclean : IsCleanLine source 1 source.toList := by
    refine ⟨0, source.toList, ?_, rfl, (cleanLine_of_renders h hplain).symm, ?_⟩
    · rw [hlines, List.getElem?_cons_zero]
    · obtain ⟨c, rest, heq, -⟩ := h.isTight.first
      rw [heq]
      exact List.cons_ne_nil _ _
  refine parse_eq_ok_iff.mpr ⟨?_, ?_, List.pairwise_singleton _ _⟩
  · rw [List.forall_mem_singleton]
    exact ⟨hclean, h⟩
  · rintro number text ⟨i, raw, hraw, rfl, -, -⟩
    rw [hlines] at hraw
    have hi : i < 1 := (List.getElem?_eq_some_iff.mp hraw).1
    exact ⟨_, List.mem_singleton_self _, by simp only; omega⟩

end Mips
