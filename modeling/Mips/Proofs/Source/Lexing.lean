import Mathlib.Data.List.TakeWhile
import Mips.Source.Token

/-!
# The texts of tokens

`Terminal.Matches` says of every kind of token which texts it has, without saying
how they are found.  Whatever the reader of lexemes takes off the front of a text is
a text of the kind that it announces (`Lexeme.matches_of_next?`), and so is every
token of a line (`Tokens.matches_of_mem_ofLine`).
-/
namespace Mips

/-- An optional minus sign. -/
def IsSign (cs : List Char) : Prop :=
  cs = [] ∨ cs = ['-']

/-- The texts of a kind of token. -/
inductive Terminal.Matches : Terminal → List Char → Prop
  | openParen : Matches .openParen ['(']
  | closeParen : Matches .closeParen [')']
  | comma : Matches .comma [',']
  | colon : Matches .colon [':']
  | hexadecimal {sign digits : List Char} {x : Char} (hsign : IsSign sign)
      (hx : x = 'x' ∨ x = 'X') (hne : digits ≠ []) (hdigits : ∀ c ∈ digits, Text.isHexDigit c) :
      Matches .hexadecimal (sign ++ '0' :: x :: digits)
  | decimal {sign digits : List Char} (hsign : IsSign sign) (hne : digits ≠ [])
      (hdigits : ∀ c ∈ digits, Text.isDigit c) : Matches .decimal (sign ++ digits)
  | identifier {c : Char} {rest : List Char} (hc : Text.isNameStart c)
      (hrest : ∀ c ∈ rest, Text.isNamePart c) : Matches .identifier (c :: rest)
  | register {name : List Char} (hne : name ≠ []) (hname : ∀ c ∈ name, Text.isAlphanumeric c) :
      Matches .register ('$' :: name)

namespace Lexeme

/-- A run is made of what has been read already and of characters of its class. -/
theorem eq_of_run? {terminal : Terminal} {front cs : List Char} {isPart : Char → Bool}
    {lexeme : Lexeme} (h : run? terminal front isPart cs = some lexeme) :
    ∃ part, part ≠ [] ∧ (∀ c ∈ part, isPart c) ∧
      lexeme = ⟨terminal, front ++ part, cs.dropWhile isPart⟩ := by
  unfold run? at h
  split at h
  · cases h
  · next part hne =>
    cases h
    exact ⟨_, hne, fun c hc => List.mem_takeWhile_imp hc, rfl⟩

theorem matches_of_hexadecimal? {sign cs : List Char} {lexeme : Lexeme} (hsign : IsSign sign)
    (h : hexadecimal? sign cs = some lexeme) : lexeme.terminal.Matches lexeme.text := by
  unfold hexadecimal? at h
  split at h
  · obtain ⟨digits, hne, hdigits, rfl⟩ := eq_of_run? h
    simpa using Terminal.Matches.hexadecimal hsign (Or.inl rfl) hne hdigits
  · obtain ⟨digits, hne, hdigits, rfl⟩ := eq_of_run? h
    simpa using Terminal.Matches.hexadecimal hsign (Or.inr rfl) hne hdigits
  · cases h

theorem matches_of_number? {sign cs : List Char} {lexeme : Lexeme} (hsign : IsSign sign)
    (h : number? sign cs = some lexeme) : lexeme.terminal.Matches lexeme.text := by
  unfold number? at h
  split at h
  · next hhex =>
    cases h
    exact matches_of_hexadecimal? hsign hhex
  · obtain ⟨digits, hne, hdigits, rfl⟩ := eq_of_run? h
    exact .decimal hsign hne hdigits

/-- **A lexeme is a text of its kind.** -/
theorem matches_of_next? {cs : List Char} {lexeme : Lexeme} (h : next? cs = some lexeme) :
    lexeme.terminal.Matches lexeme.text := by
  unfold next? at h
  split at h
  · cases h
  · cases h; exact .openParen
  · cases h; exact .closeParen
  · cases h; exact .comma
  · cases h; exact .colon
  · obtain ⟨name, hne, hname, rfl⟩ := eq_of_run? h
    exact .register hne hname
  · exact matches_of_number? (Or.inr rfl) h
  · split at h
    · next hstart =>
      cases h
      exact .identifier hstart fun c hc => List.mem_takeWhile_imp hc
    · exact matches_of_number? (Or.inl rfl) h

end Lexeme

namespace Tokens

/-- Reading on from a place adds tokens of their kinds to those that are there. -/
theorem matches_of_mem_readFrom {place : Nat} {cs : List Char} {done : List Token}
    (hdone : ∀ token ∈ done, token.terminal.Matches token.text) :
    ∀ token ∈ (readFrom place cs done).list, token.terminal.Matches token.text := by
  fun_induction readFrom place cs done with
  | case1 => simpa using hdone
  | case2 => simpa using hdone
  | case3 place cs done start c rest hblank lexeme hnext token ih =>
    apply ih
    intro t ht
    rcases List.mem_cons.mp ht with rfl | ht
    · exact Lexeme.matches_of_next? hnext
    · exact hdone t ht

/-- **Every token of a line is a text of its kind.** -/
theorem matches_of_mem_ofLine {cs : List Char} {token : Token} (h : token ∈ (ofLine cs).list) :
    token.terminal.Matches token.text :=
  matches_of_mem_readFrom (by simp) token h

end Tokens
end Mips
