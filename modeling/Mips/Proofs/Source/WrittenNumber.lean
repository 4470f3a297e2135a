import Mips.Proofs.Source.Number

/-!
# Numbers as they are written

An integer that is written in decimal digits (`Numeral.decimal`) is a number token of the
source language (`Numeral.matches_decimal`), and it stands for the integer that was written
(`Numeral.denotes_decimal`).  A natural number that is written with a fixed number of digits
(`Numeral.fixed`) is spelled by them if there are enough (`Numeral.spells_fixed`).
-/
namespace Mips.Numeral

theorem isDigit_digitChar {base d : Nat} (hd : d < base) : IsDigit base (Nat.digitChar d) d :=
  ⟨hd, .inl rfl⟩

/-- One more digit shifts what is there by one place. -/
theorem Spells.append_digit {base : Nat} {cs : List Char} {c : Char} {n d : Nat}
    (h : Spells base cs n) (hd : IsDigit base c d) : Spells base (cs ++ [c]) (base * n + d) := by
  obtain ⟨digits, -, hdigits, rfl⟩ := h
  refine ⟨digits ++ [d], by simp, ?_, ?_⟩
  · exact List.rel_append hdigits (.cons hd .nil)
  · rw [List.reverse_append, List.reverse_singleton, List.singleton_append, Nat.ofDigits_cons]
    exact Nat.add_comm _ _

theorem spells_digit {base : Nat} {c : Char} {d : Nat} (hd : IsDigit base c d) :
    Spells base [c] d :=
  ⟨[d], List.cons_ne_nil _ _, .cons hd .nil, by simp⟩

/-- The digits of a number spell it. -/
theorem spells_toDigits {base : Nat} (hbase : 1 < base) (n : Nat) :
    Spells base (Nat.toDigits base n) n := by
  induction n using Nat.strongRecOn with
  | ind n ih =>
    rw [Nat.toDigits_eq_if hbase]
    have hpos : 0 < base := Nat.lt_of_succ_lt hbase
    split
    · next hlt => exact spells_digit (isDigit_digitChar hlt)
    · next hge =>
      have hsmaller : n / base < n := Nat.div_lt_self (by omega) hbase
      have hspells :=
        (ih _ hsmaller).append_digit (isDigit_digitChar (Nat.mod_lt n hpos))
      rwa [Nat.div_add_mod] at hspells

/-- A number that fits a fixed number of digits is spelled by them. -/
theorem spells_fixed {base : Nat} (hbase : 0 < base) {width n : Nat}
    (hn : n < base ^ (width + 1)) : Spells base (fixed base (width + 1) n) n := by
  induction width generalizing n with
  | zero =>
    rw [Nat.zero_add, Nat.pow_one] at hn
    rw [Nat.zero_add, fixed, fixed, List.nil_append, Nat.mod_eq_of_lt hn]
    exact spells_digit (isDigit_digitChar hn)
  | succ width ih =>
    have hfront : n / base < base ^ (width + 1) := by
      rw [Nat.div_lt_iff_lt_mul hbase, ← Nat.pow_succ]
      exact hn
    have hspells := (ih hfront).append_digit (isDigit_digitChar (Nat.mod_lt n hbase))
    rwa [Nat.div_add_mod] at hspells

theorem exists_digitChar_of_mem_fixed {base width n : Nat} (hbase : 0 < base) {c : Char}
    (h : c ∈ fixed base width n) : ∃ d < base, c = Nat.digitChar d := by
  induction width generalizing n with
  | zero => cases h
  | succ width ih =>
    rcases List.mem_append.mp h with hfront | hlast
    · exact ih hfront
    · exact ⟨n % base, Nat.mod_lt n hbase, List.mem_singleton.mp hlast⟩

theorem isDigit_of_mem_toDigits {n : Nat} {c : Char} (h : c ∈ Nat.toDigits 10 n) :
    Text.isDigit c := by
  have hc := Nat.isDigit_of_mem_toDigits (by decide) (by decide) h
  simpa [Char.isDigit, Text.isDigit, Char.le_def] using hc

/-- What is written is a number of the source language. -/
theorem matches_decimal (v : Int) : Terminal.decimal.Matches (decimal v).toList := by
  cases v with
  | ofNat n =>
    rw [decimal, String.toList_ofList]
    exact .decimal (.inl rfl) Nat.toDigits_ne_nil fun _ => isDigit_of_mem_toDigits
  | negSucc n =>
    rw [decimal, String.toList_ofList]
    exact .decimal (.inr rfl) Nat.toDigits_ne_nil fun _ => isDigit_of_mem_toDigits

/-- **What is written stands for the integer that was written.** -/
theorem denotes_decimal (v : Int) : Denotes (decimal v).toList v := by
  cases v with
  | ofNat n =>
    rw [decimal, String.toList_ofList]
    exact .positive (.decimal (spells_toDigits (by decide) n))
  | negSucc n =>
    rw [decimal, String.toList_ofList, Int.negSucc_eq]
    exact .negative (.decimal (spells_toDigits (by decide) (n + 1)))

end Mips.Numeral
