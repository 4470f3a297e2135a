import Mips.Proofs.Source.Rendering
import Mips.Proofs.Source.WrittenNumber

/-!
# One number, many spellings

A number can be written with zeros in front of its digits, with its letters in either
case, and in base ten or sixteen.  `Numeral.Respelled` relates a number text to the texts
that differ from it in one of these, and all of them stand for the same integer
(`Numeral.Respelled.denotes`).
-/
namespace Mips.Numeral

/-- The same character, perhaps in another letter case. -/
def SameLetter (c c' : Char) : Prop :=
  c' = c ∨ c' = c.toLower ∨ c' = c.toUpper

/-- Another spelling of a number text. -/
inductive Respelled : List Char → List Char → Prop
  /-- Zeros in front of decimal digits. -/
  | decimalZeros {sign digits : List Char} (hsign : IsSign sign) (hne : digits ≠ [])
      (hdigits : ∀ c ∈ digits, Text.isDigit c) (k : Nat) :
      Respelled (sign ++ digits) (sign ++ (List.replicate k '0' ++ digits))
  /-- Zeros in front of hexadecimal digits. -/
  | hexadecimalZeros {sign digits : List Char} {x : Char} (hsign : IsSign sign)
      (hx : x = 'x' ∨ x = 'X') (hne : digits ≠ []) (hdigits : ∀ c ∈ digits, Text.isHexDigit c)
      (k : Nat) :
      Respelled (sign ++ '0' :: x :: digits) (sign ++ '0' :: x :: (List.replicate k '0' ++ digits))
  /-- Letters in another case. -/
  | letters {cs cs' : List Char} (h : List.Forall₂ SameLetter cs cs') : Respelled cs cs'
  /-- Base sixteen in the place of base ten. -/
  | base {sign : List Char} (hsign : IsSign sign) (n : Nat) :
      Respelled (sign ++ Nat.toDigits 10 n) (sign ++ '0' :: 'x' :: Nat.toDigits 16 n)

variable {base : Nat} {cs cs' : List Char} {n : Nat}

/-! ## Zeros in front -/

theorem Spells.zero_cons (hbase : 0 < base) (h : Spells base cs n) :
    Spells base ('0' :: cs) n := by
  obtain ⟨digits, -, hdigits, rfl⟩ := h
  have hzero : IsDigit base '0' 0 := isDigit_digitChar hbase
  refine ⟨0 :: digits, List.cons_ne_nil _ _, .cons hzero hdigits, ?_⟩
  rw [ofDigits_reverse_cons, Nat.zero_mul, Nat.zero_add]

theorem Spells.zeros_append (hbase : 0 < base) (h : Spells base cs n) (k : Nat) :
    Spells base (List.replicate k '0' ++ cs) n := by
  induction k with
  | zero => exact h
  | succ k ih =>
    rw [List.replicate_succ, List.cons_append]
    exact ih.zero_cons hbase

/-! ## Letter case -/

/-- A digit has its two letter cases and no other. -/
theorem letterCases_digitChar {d : Nat} (hd : d < 16) :
    (Nat.digitChar d).toLower = Nat.digitChar d ∧
      (Nat.digitChar d).toUpper.toLower = Nat.digitChar d ∧
      (Nat.digitChar d).toUpper.toUpper = (Nat.digitChar d).toUpper := by
  revert d
  decide

theorem IsDigit.sameLetter (hbase : base ≤ 16) {c c' : Char} {d : Nat} (h : IsDigit base c d)
    (hc : SameLetter c c') : IsDigit base c' d := by
  obtain ⟨hd, hdigit⟩ := h
  obtain ⟨hlower, hback, hupper⟩ := letterCases_digitChar (Nat.lt_of_lt_of_le hd hbase)
  refine ⟨hd, ?_⟩
  rcases hdigit with rfl | rfl
  · rcases hc with rfl | rfl | rfl
    · exact .inl rfl
    · exact .inl hlower
    · exact .inr rfl
  · rcases hc with rfl | rfl | rfl
    · exact .inr rfl
    · exact .inl hback
    · exact .inr hupper

theorem Spells.sameLetters (hbase : base ≤ 16) (h : Spells base cs n)
    (hcs : List.Forall₂ SameLetter cs cs') : Spells base cs' n := by
  obtain ⟨digits, hne, hdigits, rfl⟩ := h
  refine ⟨digits, hne, ?_, rfl⟩
  clear hne
  induction hdigits generalizing cs' with
  | nil =>
    cases hcs
    exact .nil
  | cons hd _ ih =>
    cases hcs with
    | cons hc hrest => exact .cons (hd.sameLetter hbase hc) (ih hrest)

theorem SameLetter.eq_of_not_letter {c c' : Char} (h : SameLetter c c')
    (hlower : c.toLower = c) (hupper : c.toUpper = c) : c' = c := by
  rcases h with rfl | rfl | rfl
  · rfl
  · exact hlower
  · exact hupper

theorem SameLetter.eq_x {c c' : Char} (h : SameLetter c c') (hc : c = 'x' ∨ c = 'X') :
    c' = 'x' ∨ c' = 'X' := by
  rcases hc with rfl | rfl <;> rcases h with rfl | rfl | rfl <;> decide

theorem Magnitude.sameLetters (h : Magnitude cs n) (hcs : List.Forall₂ SameLetter cs cs') :
    Magnitude cs' n := by
  cases h with
  | decimal h => exact .decimal (h.sameLetters (by decide) hcs)
  | hexadecimal hx h =>
    obtain ⟨c, _, hc, hrest, rfl⟩ := List.forall₂_cons_left_iff.mp hcs
    obtain ⟨x', digits, hx', hdigits, rfl⟩ := List.forall₂_cons_left_iff.mp hrest
    rw [hc.eq_of_not_letter rfl rfl]
    exact .hexadecimal (hx'.eq_x hx) (h.sameLetters (by decide) hdigits)

theorem Denotes.sameLetters {v : Int} (h : Denotes cs v)
    (hcs : List.Forall₂ SameLetter cs cs') : Denotes cs' v := by
  cases h with
  | positive h => exact .positive (h.sameLetters hcs)
  | negative h =>
    obtain ⟨c, rest, hc, hrest, rfl⟩ := List.forall₂_cons_left_iff.mp hcs
    rw [hc.eq_of_not_letter rfl rfl]
    exact .negative (h.sameLetters hrest)

/-! ## The same magnitude behind the same sign -/

theorem Magnitude.denotes_append {sign : List Char} (hsign : IsSign sign)
    (h : Magnitude cs n) (h' : Magnitude cs' n) {v : Int} (hv : Denotes (sign ++ cs) v) :
    Denotes (sign ++ cs') v := by
  rcases hsign with rfl | rfl
  · rw [hv.unique (.positive h)]
    exact .positive h'
  · rw [hv.unique (.negative h)]
    exact .negative h'

/-- **Every spelling of a number stands for that number.** -/
theorem Respelled.denotes (h : Respelled cs cs') {v : Int} (hv : Denotes cs v) :
    Denotes cs' v := by
  cases h with
  | decimalZeros hsign hne hdigits k =>
    obtain ⟨n, hn⟩ := exists_spells hne fun c hc => exists_isDigit_decimal (hdigits c hc)
    exact Magnitude.denotes_append hsign (.decimal hn)
      (.decimal (hn.zeros_append (by decide) k)) hv
  | hexadecimalZeros hsign hx hne hdigits k =>
    obtain ⟨n, hn⟩ := exists_spells hne fun c hc => exists_isDigit_hexadecimal (hdigits c hc)
    exact Magnitude.denotes_append hsign (.hexadecimal hx hn)
      (.hexadecimal hx (hn.zeros_append (by decide) k)) hv
  | letters hcs => exact hv.sameLetters hcs
  | base hsign n =>
    exact Magnitude.denotes_append hsign (.decimal (spells_toDigits (by decide) n))
      (.hexadecimal (.inl rfl) (spells_toDigits (by decide) n)) hv

end Mips.Numeral
