import Mips.Proofs.Source.Number

/-!
# How registers are written

`Register.Renders` relates a register to its tokens, without a word about how a token is
read.  Behind the dollar sign there are decimal digits that spell a number below 256, or
else there is a name, so a number from 256 on is a name, too.  Every register token is a
rendering of the register that it is read as, and of no other
(`Register.renders_ofToken`, `Register.Renders.eq_ofToken`).
-/
namespace Mips.Register

/-- The tokens of a register. -/
inductive Renders : Register → List Char → Prop
  | numbered {digits : List Char} {n : Nat} (htoken : Terminal.register.Matches ('$' :: digits))
      (hdigits : Numeral.Spells 10 digits n) (hn : n < 256) : Renders (.numbered n) ('$' :: digits)
  | named {name : List Char} (htoken : Terminal.register.Matches ('$' :: name))
      (hname : ∀ n < 256, ¬ Numeral.Spells 10 name n) :
      Renders (.named (String.ofList name)) ('$' :: name)

theorem Renders.matches {register : Register} {token : List Char} (h : register.Renders token) :
    Terminal.register.Matches token := by
  cases h with
  | numbered htoken => exact htoken
  | named htoken => exact htoken

variable {text token : List Char} {n : Nat}

/-! ## Numbers -/

theorem number?_eq (h : text.head? ≠ some '+') :
    number? text = (Numeral.nat? 10 text).filter (· < 256) := by
  unfold number?
  split
  · exact absurd rfl h
  · rfl

/-- Digits are read as the number that they spell if it is below 256. -/
theorem number?_eq_some_iff (h : text.head? ≠ some '+') :
    number? text = some n ↔ Numeral.Spells 10 text n ∧ n < 256 := by
  rw [number?_eq h, Option.filter_eq_some_iff, Numeral.nat?_eq_some_iff (by decide),
    decide_eq_true_iff]

theorem number?_eq_none_iff (h : text.head? ≠ some '+') :
    number? text = none ↔ ∀ n < 256, ¬ Numeral.Spells 10 text n := by
  simp only [Option.eq_none_iff_forall_ne_some, ne_eq, number?_eq_some_iff h, not_and]
  exact forall_congr' fun n => ⟨fun hnot hn hspells => hnot hspells hn,
    fun hnot hspells hn => hnot hn hspells⟩

theorem lt_of_number? (h : number? text = some n) : n < 256 := by
  unfold number? at h
  exact of_decide_eq_true (Option.filter_eq_some_iff.mp h).2

/-! ## Tokens -/

section
variable (hplain : text.dropWhile (· == '$') = text)
include hplain

theorem ofToken_of_number? (h : number? text = some n) :
    ofToken ('$' :: text) = .numbered n := by
  unfold ofToken
  rw [List.dropWhile_cons_of_pos (by decide), hplain]
  dsimp only
  rw [h]

theorem ofToken_of_not_number? (h : number? text = none) :
    ofToken ('$' :: text) = .named (String.ofList text) := by
  unfold ofToken
  rw [List.dropWhile_cons_of_pos (by decide), hplain]
  dsimp only
  rw [h]

end

theorem dropWhile_of_head? (h : text.head? ≠ some '$') :
    text.dropWhile (· == '$') = text := by
  cases text with
  | nil => rfl
  | cons c rest =>
    refine List.dropWhile_cons_of_neg fun hc => h ?_
    rw [List.head?_cons, beq_iff_eq.mp hc]

/-- A register token begins with one dollar sign, and what stands behind it with none of the
characters that names do not have. -/
theorem head?_ne_of_matches {c : Char} (h : Terminal.register.Matches ('$' :: text))
    (hc : Text.isAlphanumeric c = false) : text.head? ≠ some c := by
  intro hhead
  cases h with
  | register _ hname =>
    rw [hname c (List.mem_of_head? hhead)] at hc
    cases hc

/-- A register token has one register at most, and that is the one it is read as. -/
theorem Renders.eq_ofToken {register : Register} (h : register.Renders token) :
    register = ofToken token := by
  cases h with
  | numbered htoken hdigits hn =>
    have hplain := dropWhile_of_head? (head?_ne_of_matches htoken (by decide))
    have hplus := head?_ne_of_matches (c := '+') htoken (by decide)
    exact (ofToken_of_number? hplain ((number?_eq_some_iff hplus).mpr ⟨hdigits, hn⟩)).symm
  | named htoken hname =>
    have hplain := dropWhile_of_head? (head?_ne_of_matches htoken (by decide))
    have hplus := head?_ne_of_matches (c := '+') htoken (by decide)
    exact (ofToken_of_not_number? hplain ((number?_eq_none_iff hplus).mpr hname)).symm

/-- Every register token is a rendering of the register that it is read as. -/
theorem renders_ofToken (h : Terminal.register.Matches token) : (ofToken token).Renders token := by
  obtain ⟨text, rfl⟩ : ∃ text, token = '$' :: text := by
    cases h
    exact ⟨_, rfl⟩
  have hplain := dropWhile_of_head? (head?_ne_of_matches h (by decide))
  have hplus := head?_ne_of_matches (c := '+') h (by decide)
  cases hnumber : number? text with
  | some n =>
    obtain ⟨hdigits, hn⟩ := (number?_eq_some_iff hplus).mp hnumber
    rw [ofToken_of_number? hplain hnumber]
    exact .numbered h hdigits hn
  | none =>
    rw [ofToken_of_not_number? hplain hnumber]
    exact .named h ((number?_eq_none_iff hplus).mp hnumber)

end Mips.Register
