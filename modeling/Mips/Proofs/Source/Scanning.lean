import Mips.Proofs.Source.Completeness

/-!
# The tokens of a line

`Tokens.Scan` divides a text into blanks and longest matches, up to its end or to a place
where no token begins, and says where in the text everything is.  The tokens of a line are
divided in that way and in no other (`Tokens.scan_iff`).
-/
namespace Mips

theorem Text.byteSize_append (a b : List Char) : byteSize (a ++ b) = byteSize a + byteSize b := by
  induction a with
  | nil => exact (Nat.zero_add _).symm
  | cons c a ih =>
    unfold byteSize at ih ⊢
    rw [List.cons_append, List.foldr_cons, List.foldr_cons, ih, Nat.add_assoc]

/-- No token is in front of a text that the reader of lexemes refuses. -/
theorem Lexeme.next?_eq_none_iff {cs : List Char} : next? cs = none ↔
    ∀ (terminal : Terminal) (text : List Char), terminal.Matches text → ¬ text <+: cs := by
  constructor
  · rintro h terminal text hmatches ⟨rest, rfl⟩
    obtain ⟨lexeme, hnext, -⟩ := reaches_next? rest hmatches
    rw [h] at hnext
    cases hnext
  · intro h
    cases hnext : next? cs with
    | none => rfl
    | some lexeme =>
      exact absurd ⟨_, text_append_rest hnext⟩ (h _ _ (matches_of_next? hnext))

namespace Tokens

/-- A text that starts at a place in its line, and its tokens.  Blanks stand between them,
and each is the longest text of any kind of token that is there. -/
inductive Scan : Nat → List Char → Tokens → Prop
  | finish {place : Nat} {blanks : List Char} (hblanks : Blanks blanks) :
      Scan place blanks ⟨[], none⟩
  /-- No token begins at the first character that is not blank. -/
  | invalid {place : Nat} {blanks rest : List Char} {c : Char} (hblanks : Blanks blanks)
      (hc : ¬ Text.isBlank c) (hnone : ∀ (terminal : Terminal) (text : List Char),
        terminal.Matches text → ¬ text <+: c :: rest) :
      Scan place (blanks ++ c :: rest) ⟨[], some (place + Text.byteSize blanks)⟩
  | token {place : Nat} {blanks text rest : List Char} {terminal : Terminal} {tokens : Tokens}
      (hblanks : Blanks blanks) (htext : terminal.Matches text)
      (hlongest : ∀ (terminal' : Terminal) (text' : List Char),
        terminal'.Matches text' → text' <+: text ++ rest → text'.length ≤ text.length)
      (hrest : Scan (place + Text.byteSize blanks + Text.byteSize text) rest tokens) :
      Scan place (blanks ++ (text ++ rest))
        ⟨⟨terminal, text, place + Text.byteSize blanks⟩ :: tokens.list, tokens.invalid?⟩

variable {place : Nat} {cs : List Char} {tokens : Tokens} {done : List Token}

/-- A text is divided in one way only, and reading it finds the tokens. -/
theorem Scan.readFrom_eq (h : Scan place cs tokens) (done : List Token) :
    readFrom place cs done = ⟨done.reverse ++ tokens.list, tokens.invalid?⟩ := by
  induction h generalizing done with
  | finish hblanks =>
    have hdrop := blanks_iff_dropWhile.mp hblanks
    unfold readFrom
    split
    · rw [List.append_nil]
    · next heq =>
      rw [hdrop] at heq
      cases heq
  | @invalid place blanks rest c hblanks hc hnone =>
    have hdrop : (blanks ++ c :: rest).dropWhile Text.isBlank = c :: rest := by
      rw [List.dropWhile_append_of_pos hblanks, List.dropWhile_cons_of_neg hc]
    have htake : (blanks ++ c :: rest).takeWhile Text.isBlank = blanks := by
      rw [List.takeWhile_append_of_pos hblanks, List.takeWhile_cons_of_neg hc, List.append_nil]
    have hnext := Lexeme.next?_eq_none_iff.mpr hnone
    unfold readFrom
    split
    · next heq =>
      rw [hdrop] at heq
      cases heq
    · next heq =>
      rw [hdrop] at heq
      cases heq
      split
      · rw [htake, List.append_nil]
      · next hsome =>
        rw [hnext] at hsome
        cases hsome
  | @token place blanks text rest terminal tokens hblanks htext hlongest hrest ih =>
    have hdrop : (blanks ++ (text ++ rest)).dropWhile Text.isBlank = text ++ rest :=
      dropWhile_isBlank_append hblanks htext
    have htake : (blanks ++ (text ++ rest)).takeWhile Text.isBlank = blanks :=
      takeWhile_isBlank_append hblanks htext
    have hnext : Lexeme.next? (text ++ rest) = some ⟨terminal, text, rest⟩ :=
      Lexeme.next?_eq_some_iff.mpr ⟨rfl, htext, fun terminal' text' rest' hmatches happ =>
        hlongest terminal' text' hmatches ⟨rest', happ⟩⟩
    unfold readFrom
    split
    · next heq =>
      rw [hdrop] at heq
      exact absurd (List.append_eq_nil_iff.mp heq).1 htext.ne_nil
    · next heq =>
      rw [hdrop] at heq
      split
      · next hnone =>
        rw [← heq, hnext] at hnone
        cases hnone
      · next hsome =>
        rw [← heq, hnext] at hsome
        cases hsome
        rw [htake]
        exact (ih _).trans (by simp)

/-- Every text can be divided. -/
theorem exists_scan (place : Nat) (cs : List Char) : ∃ tokens, Scan place cs tokens := by
  induction hlength : cs.length using Nat.strongRecOn generalizing place cs with
  | ind length ih =>
    have hskip : Blanks (cs.takeWhile Text.isBlank) := fun c hc => List.mem_takeWhile_imp hc
    have happ : cs.takeWhile Text.isBlank ++ cs.dropWhile Text.isBlank = cs :=
      List.takeWhile_append_dropWhile
    cases hdrop : cs.dropWhile Text.isBlank with
    | nil => exact ⟨_, .finish (blanks_iff_dropWhile.mpr hdrop)⟩
    | cons c rest =>
      rw [hdrop] at happ
      rw [← happ]
      cases hnext : Lexeme.next? (c :: rest) with
      | none =>
        have hnone := Lexeme.next?_eq_none_iff.mp hnext
        exact ⟨_, .invalid hskip (Text.not_isBlank_of_dropWhile hdrop) hnone⟩
      | some lexeme =>
        have hlt := Lexeme.length_rest_lt_of_dropWhile hdrop hnext
        obtain ⟨hcons, htext, hlongest⟩ := Lexeme.next?_eq_some_iff.mp hnext
        obtain ⟨tokens, hscan⟩ := ih _ (hlength ▸ hlt) _ lexeme.rest rfl
        rw [← hcons]
        refine ⟨_, .token hskip htext (fun terminal' text' hmatches hfront => ?_) hscan⟩
        obtain ⟨rest', hrest'⟩ := hfront
        exact hlongest terminal' text' rest' hmatches (hrest'.trans hcons)

/-- **The tokens of a line are those it is divided into.** -/
theorem scan_iff : Scan 0 cs tokens ↔ ofLine cs = tokens := by
  have hread : ∀ {tokens}, Scan 0 cs tokens → ofLine cs = tokens := fun h =>
    (h.readFrom_eq []).trans (by rw [List.reverse_nil, List.nil_append])
  constructor
  · exact hread
  · rintro rfl
    obtain ⟨tokens, hscan⟩ := exists_scan 0 cs
    rwa [hread hscan]

/-! ## Places in the line -/

/-- A token is a piece of the text, its place is the number of bytes in front of it, and it is
the longest text of any kind of token that is there. -/
theorem Scan.exists_longest (h : Scan place cs tokens) {token : Token}
    (htoken : token ∈ tokens.list) : ∃ before after, cs = before ++ (token.text ++ after) ∧
      token.start = place + Text.byteSize before ∧ token.terminal.Matches token.text ∧
      ∀ (terminal : Terminal) (text : List Char), terminal.Matches text →
        text <+: token.text ++ after → text.length ≤ token.text.length := by
  induction h with
  | finish | invalid => cases htoken
  | @token place blanks text rest terminal tokens hblanks htext hlongest hrest ih =>
    rcases List.mem_cons.mp htoken with rfl | htoken
    · exact ⟨blanks, rest, rfl, rfl, htext, hlongest⟩
    · obtain ⟨before, after, rfl, hstart, hmatches⟩ := ih htoken
      refine ⟨blanks ++ (text ++ before), after, by simp, ?_, hmatches⟩
      rw [hstart, Text.byteSize_append, Text.byteSize_append]
      omega

theorem Scan.exists_append (h : Scan place cs tokens) {token : Token}
    (htoken : token ∈ tokens.list) : ∃ before after, cs = before ++ (token.text ++ after) ∧
      token.start = place + Text.byteSize before := by
  obtain ⟨before, after, hcs, hstart, -⟩ := h.exists_longest htoken
  exact ⟨before, after, hcs, hstart⟩

/-- Blanks and texts of tokens behind one another, in any order. -/
inductive Tokenized : List Char → Prop
  | nil : Tokenized []
  | blanks {blanks rest : List Char} (hblanks : Blanks blanks) (hrest : Tokenized rest) :
      Tokenized (blanks ++ rest)
  | token {terminal : Terminal} {text rest : List Char} (htext : terminal.Matches text)
      (hrest : Tokenized rest) : Tokenized (text ++ rest)

/-- A text that begins neither with a blank nor with a token. -/
def Stuck (cs : List Char) : Prop :=
  ∃ c rest, cs = c :: rest ∧ ¬ Text.isBlank c ∧ ∀ (terminal : Terminal) (text : List Char),
    terminal.Matches text → ¬ text <+: c :: rest

/-- Tokens and blanks are all there is, up to the end or to a place where the text is stuck. -/
theorem Scan.exists_stop (h : Scan place cs tokens) : ∃ before after, cs = before ++ after ∧
    Tokenized before ∧ (tokens.invalid? = none ∧ after = [] ∨
      tokens.invalid? = some (place + Text.byteSize before) ∧ Stuck after) := by
  induction h with
  | @finish place blanks hblanks =>
    exact ⟨blanks, [], (List.append_nil _).symm, by simpa using Tokenized.blanks hblanks .nil,
      .inl ⟨rfl, rfl⟩⟩
  | @invalid place blanks rest c hblanks hc hnone =>
    exact ⟨blanks, c :: rest, rfl, by simpa using Tokenized.blanks hblanks .nil,
      .inr ⟨rfl, c, rest, rfl, hc, hnone⟩⟩
  | @token place blanks text rest terminal tokens hblanks htext hlongest hrest ih =>
    obtain ⟨before, after, rfl, hbefore, hstop⟩ := ih
    refine ⟨blanks ++ (text ++ before), after, by simp, .blanks hblanks (.token htext hbefore),
      hstop.imp_right ?_⟩
    rintro ⟨hinvalid, hstuck⟩
    refine ⟨hinvalid.trans (congrArg some ?_), hstuck⟩
    rw [Text.byteSize_append, Text.byteSize_append]
    omega

end Tokens
end Mips
