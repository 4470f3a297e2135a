import Mips.Proofs.Source.Scanning
import Mips.Proofs.Source.Viability

/-!
# What is wrong with a line

A line that cannot be read is refused for the first thing that is wrong with it, when its
tokens come up one after the other (`Line.parse_eq_error_iff_first_fault`).  A token is
wrong if nothing that the grammar derives begins with it and the tokens before it, and the
end of the line is if the tokens are not derivable.  Both are said to be wrong with a list
of just those kinds of token that would not have been.  Only then the blanks count: the
operand that a token or the end completes must not touch the one before it, and at the end
the operands must not touch the mnemonic.  All places in messages are numbers of bytes.
-/
namespace Mips

open Grammar

/-! ## Faults -/

/-- The kinds of token that can come behind some tokens, in the order of all kinds. -/
def expectedBehind (tokens : List Token) : List Terminal :=
  Terminal.all.filter fun terminal => Viable (kinds tokens ++ [terminal])

/-- What is wrong when `token` comes up behind `before`. -/
inductive TokenFault (before : List Token) (token : Token) : SyntaxError → Prop
  | unexpected (hviable : ¬ Viable (kinds (before ++ [token]))) :
      TokenFault before token (.unexpectedToken token (expectedBehind before))
  /-- The token completes an operand, unless it is a parenthesis behind a number. -/
  | touching (hviable : Viable (kinds (before ++ [token]))) (hparen : token.terminal ≠ .openParen)
      (htouch : OperandsTouch before) : TokenFault before token .operandsTouch

namespace Reading

variable {reading next : Reading} {before : List Token} {token : Token} {e : SyntaxError}

/-- A token that can come behind a complete operand completes it, unless it is a
parenthesis. -/
theorem completes_iff (h : reading.next? token = some next) (htouching : reading.touching = true) :
    reading.completes token = true ↔ token.terminal ≠ .openParen := by
  cases reading with
  | operand body last stop =>
    refine iff_of_true rfl fun hparen => ?_
    have hnone : afterOperand? body last stop token = none := by
      simp [afterOperand?, startOperand?, hparen]
    cases hnone.symm.trans h
  | number => exact decide_eq_true_iff
  | start | name | labelled | mnemonic | offset | base | comma => cases htouching

/-- **A token is refused exactly for what is wrong with it.** -/
theorem read_eq_error_iff (h : after? before = some reading) :
    reading.read token = .error e ↔ TokenFault before token e := by
  have hviable : Viable (kinds (before ++ [token])) ↔ ∃ next, reading.next? token = some next := by
    rw [viable_iff]
    simp only [after?_concat, h, Option.some.injEq, exists_eq_left']
  unfold read
  cases hnext : reading.next? token with
  | none =>
    have hbad : ¬ Viable (kinds (before ++ [token])) := by
      rw [hviable, hnext]
      exact nofun
    rw [expected_eq h, Except.error.injEq]
    constructor
    · rintro rfl
      exact .unexpected hbad
    · rintro (_ | ⟨hgood, -, -⟩)
      · rfl
      · exact absurd hgood hbad
  | some next =>
    have hgood := hviable.mpr ⟨next, hnext⟩
    constructor
    · intro herror
      simp only at herror
      split at herror
      · next hboth =>
        obtain ⟨htouching, hcompletes⟩ := Bool.and_eq_true_iff.mp hboth
        cases herror
        exact .touching hgood ((completes_iff hnext htouching).mp hcompletes)
          ((touching_iff h).mp htouching)
      · cases herror
    · rintro (hbad | ⟨-, hparen, htouch⟩)
      · exact absurd hgood hbad
      · have htouching := (touching_iff h).mpr htouch
        have hcompletes := (completes_iff hnext htouching).mpr hparen
        simp only
        rw [if_pos (Bool.and_eq_true_iff.mpr ⟨htouching, hcompletes⟩)]

section
variable {tokens : List Token}

end

end Reading

/-! ## The first fault of a line -/

namespace Tokens

variable {tokens : Tokens} {k : Nat} {e : SyntaxError} {reading : Reading}

end Tokens

/-! ## Messages -/

end Mips
