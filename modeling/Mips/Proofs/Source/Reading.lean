import Mips.Assembly.Program
import Mips.Proofs.Outcome
import Mips.Proofs.Source.Number

/-!
# The operands of a line that has been read

Operands are made from tokens, one token at a time.  `Reading.Lexical` says of what
has been read so far that the numbers in it are number texts of the language.  A
token that matches its kind keeps it so (`Reading.lexical_of_next?`), hence every
operand in a listing is one that source text can contain
(`Listing.lexical_of_parse`).
-/
namespace Mips

/-- The number in an operand, if there is one, stands for an integer. -/
def Operand.Lexical : Operand → Prop
  | .number text | .offset text _ => ∃ value, Numeral.Denotes text.toList value
  | .register _ | .label _ => True

/-- Every operand before the last one is lexical. -/
def Body.Lexical (body : Body) : Prop :=
  ∀ operand ∈ body.done, operand.Lexical

namespace Reading

/-- Every operand read so far is lexical. -/
def Lexical : Reading → Prop
  | start | name _ | labelled _ | mnemonic _ _ => True
  | operand body last _ => body.Lexical ∧ last.Lexical
  | number body text _ | offset body text | base body text _ =>
    body.Lexical ∧ (Operand.number text).Lexical
  | comma body => body.Lexical

/-! ## One token -/

variable {body : Body} {reading next : Reading} {token : Token}

/-- The operands of a statement are lexical if those before the last one and the
last one are. -/
theorem lexical_done_cons {body' : Body} {last : Operand} (hbody : body.Lexical)
    (hlast : last.Lexical) (hdone : body'.done = last :: body.done) : body'.Lexical := by
  intro operand hoperand
  rw [hdone] at hoperand
  rcases List.mem_cons.mp hoperand with rfl | hoperand
  · exact hlast
  · exact hbody operand hoperand

theorem lexical_of_startOperand? (hbody : body.Lexical)
    (htoken : token.terminal.Matches token.text) (h : startOperand? body token = some next) :
    next.Lexical := by
  unfold startOperand? at h
  split at h
  · next hterminal =>
    cases h
    exact ⟨hbody, by simpa [Operand.Lexical] using
      Numeral.exists_denotes_of_matches htoken (Or.inr hterminal)⟩
  · next hterminal =>
    cases h
    exact ⟨hbody, by simpa [Operand.Lexical] using
      Numeral.exists_denotes_of_matches htoken (Or.inl hterminal)⟩
  · cases h; exact ⟨hbody, trivial⟩
  · cases h; exact ⟨hbody, trivial⟩
  · cases h

theorem lexical_of_firstOperand? {label? : Option String} {head : Token}
    (htoken : token.terminal.Matches token.text)
    (h : firstOperand? label? head token = some next) : next.Lexical := by
  refine lexical_of_startOperand? ?_ htoken h
  intro operand hoperand
  cases hoperand

theorem lexical_of_afterOperand? {last : Operand} {stop : Nat} (hbody : body.Lexical)
    (hlast : last.Lexical) (htoken : token.terminal.Matches token.text)
    (h : afterOperand? body last stop token = some next) : next.Lexical := by
  unfold afterOperand? at h
  split at h
  · cases h
    exact lexical_done_cons hbody hlast rfl
  · exact lexical_of_startOperand? (lexical_done_cons hbody hlast rfl) htoken h

/-- **A token keeps what has been read lexical.** -/
theorem lexical_of_next? (hreading : reading.Lexical)
    (htoken : token.terminal.Matches token.text) (h : reading.next? token = some next) :
    next.Lexical := by
  cases reading with
  | start =>
    simp only [next?, Option.ite_none_right_eq_some, Option.some.injEq] at h
    exact h.2 ▸ trivial
  | name head =>
    simp only [next?] at h
    split at h
    · cases h; trivial
    · exact lexical_of_firstOperand? htoken h
  | labelled label =>
    simp only [next?, Option.ite_none_right_eq_some, Option.some.injEq] at h
    exact h.2 ▸ trivial
  | mnemonic label head => exact lexical_of_firstOperand? htoken h
  | operand body last stop => exact lexical_of_afterOperand? hreading.1 hreading.2 htoken h
  | number body text stop =>
    simp only [next?] at h
    split at h
    · cases h; exact hreading
    · exact lexical_of_afterOperand? hreading.1 hreading.2 htoken h
  | offset body text =>
    simp only [next?, Option.ite_none_right_eq_some, Option.some.injEq] at h
    exact h.2 ▸ hreading
  | base body text register =>
    simp only [next?, Option.ite_none_right_eq_some, Option.some.injEq] at h
    exact h.2 ▸ hreading
  | comma body =>
    have hbody : Body.Lexical { body with touches := false } := hreading
    exact lexical_of_startOperand? hbody htoken h

theorem lexical_of_read (hreading : reading.Lexical)
    (htoken : token.terminal.Matches token.text) (h : reading.read token = .ok next) :
    next.Lexical := by
  unfold read at h
  split at h
  · cases h
  · next hnext =>
    -- touching operands are an error and leave nothing to prove
    split at h
    · cases h
    · cases h
      exact lexical_of_next? hreading htoken hnext

/-! ## The end of the line -/

theorem lexical_of_close {last : Operand} {line : Line} (hbody : body.Lexical)
    (hlast : last.Lexical) (h : close body last = .ok line) :
    ∀ statement ∈ line.statement?, ∀ operand ∈ statement.operands, operand.Lexical := by
  unfold close at h
  split at h
  · cases h
  · split at h
    · cases h
    · cases h
      rintro _ ⟨⟩ operand hoperand
      rcases List.mem_cons.mp (List.mem_reverse.mp hoperand) with rfl | hoperand
      · exact hlast
      · exact hbody operand hoperand

theorem lexical_of_finish {place : Nat} {line : Line} (hreading : reading.Lexical)
    (h : reading.finish place = .ok line) :
    ∀ statement ∈ line.statement?, ∀ operand ∈ statement.operands, operand.Lexical := by
  unfold finish at h
  split at h
  · cases h
    rintro _ ⟨⟩ operand hoperand
    cases hoperand
  · cases h
    rintro _ ⟨⟩
  · cases h
    rintro _ ⟨⟩ operand hoperand
    cases hoperand
  · exact lexical_of_close hreading.1 hreading.2 h
  · exact lexical_of_close hreading.1 hreading.2 h
  · cases h

end Reading

/-! ## Lines and listings -/

theorem Line.lexical_of_parse {cs : List Char} {line : Line} (h : Line.parse cs = .ok line) :
    ∀ statement ∈ line.statement?, ∀ operand ∈ statement.operands, operand.Lexical := by
  unfold Line.parse Line.ofTokens at h
  obtain ⟨reading, hread, h⟩ := bind_eq_ok.mp h
  have hreading : reading.Lexical := by
    refine foldlM_induction (P := Reading.Lexical) ?_ ?_ hread
    · trivial
    · intro s s' token htoken hs hs'
      exact Reading.lexical_of_read hs (Tokens.matches_of_mem_ofLine htoken) hs'
  split at h
  · cases h
  · exact Reading.lexical_of_finish hreading h

namespace Listing

theorem parse_of_readLine {number : Nat} {text : List Char} {line : Located Line}
    (h : readLine number text = .ok line) : Line.parse text = .ok line.value := by
  unfold readLine at h
  split at h
  · next hline =>
    cases h
    exact hline
  · cases h

/-- **Every operand in a listing is lexical.** -/
theorem lexical_of_parse {source : String} {listing : Listing}
    (h : Listing.parse source = .ok listing) {line : Located Statement}
    (hline : line ∈ listing.statements) : ∀ operand ∈ line.value.operands, operand.Lexical := by
  obtain ⟨whole, hwhole, hline⟩ := List.mem_filterMap.mp hline
  obtain ⟨statement, hstatement, rfl⟩ := Option.map_eq_some_iff.mp hline
  obtain ⟨⟨number, text⟩, -, hread⟩ := exists_of_mem_of_mapM h hwhole
  exact Line.lexical_of_parse (parse_of_readLine hread) statement hstatement

end Listing
end Mips
