import Mathlib.Data.List.Forall2
import Mathlib.Data.Nat.Digits.Defs
import Mips.Assembly.Resolution
import Mips.Proofs.Source.Lexing

/-!
# What numbers stand for

A number in source text is an optional minus sign and digits of base ten, or of base
sixteen behind `0x`.  `Numeral.Denotes` says which integer such a text stands for,
by the sum of its digits times powers of the base and without a bound on its length.
Every token of the two number kinds stands for an integer
(`Numeral.exists_denotes_of_matches`) and for no other (`Numeral.Denotes.unique`), and
`numberValue?` finds that integer whenever its absolute value is below `2 ^ 63`, and
nothing otherwise (`Numeral.Denotes.numberValue?_eq`).
-/
namespace Mips.Numeral

/-- `c` is a digit of base `base` in either letter case, worth `d`. -/
def IsDigit (base : Nat) (c : Char) (d : Nat) : Prop :=
  d < base ∧ (c = Nat.digitChar d ∨ c = (Nat.digitChar d).toUpper)

/-- `cs` is a run of digits of base `base`, the most significant one first, worth
`n`. -/
def Spells (base : Nat) (cs : List Char) (n : Nat) : Prop :=
  ∃ digits : List Nat, digits ≠ [] ∧ List.Forall₂ (IsDigit base) cs digits ∧
    n = Nat.ofDigits base digits.reverse

/-- The natural number that a number text without a sign stands for. -/
inductive Magnitude : List Char → Nat → Prop
  | decimal {cs : List Char} {n : Nat} (h : Spells 10 cs n) : Magnitude cs n
  | hexadecimal {x : Char} {cs : List Char} {n : Nat} (hx : x = 'x' ∨ x = 'X')
      (h : Spells 16 cs n) : Magnitude ('0' :: x :: cs) n

/-- The integer that a number text of the source language stands for. -/
inductive Denotes : List Char → Int → Prop
  | positive {cs : List Char} {n : Nat} (h : Magnitude cs n) : Denotes cs n
  | negative {cs : List Char} {n : Nat} (h : Magnitude cs n) : Denotes ('-' :: cs) (-n)

/-! ## Digits -/

theorem digitValue?_digitChar {d : Nat} (h : d < 16) :
    digitValue? (Nat.digitChar d) = some d ∧ digitValue? (Nat.digitChar d).toUpper = some d := by
  revert d
  decide

theorem isDigit_of_digitValue?_ofNat : ∀ n < 128, ∀ d ∈ digitValue? (Char.ofNat n),
    d < 16 ∧ (Char.ofNat n = Nat.digitChar d ∨ Char.ofNat n = (Nat.digitChar d).toUpper) := by
  decide +kernel

theorem toNat_le_of_le {c c' : Char} (h : c ≤ c') : c.toNat ≤ c'.toNat :=
  UInt32.le_iff_toNat_le.mp h

theorem toNat_lt_of_digitValue? {c : Char} {d : Nat} (h : digitValue? c = some d) :
    c.toNat < 128 := by
  unfold digitValue? at h
  split at h
  · next hc => exact Nat.lt_of_le_of_lt (toNat_le_of_le hc.2) (by decide)
  · split at h
    · next hc => exact Nat.lt_of_le_of_lt (toNat_le_of_le hc.2) (by decide)
    · split at h
      · next hc => exact Nat.lt_of_le_of_lt (toNat_le_of_le hc.2) (by decide)
      · cases h

theorem digitValue?_eq_some_iff {c : Char} {d : Nat} :
    digitValue? c = some d ↔ IsDigit 16 c d := by
  constructor
  · intro h
    have hlt := toNat_lt_of_digitValue? h
    rw [← Char.ofNat_toNat c] at h ⊢
    exact isDigit_of_digitValue?_ofNat c.toNat hlt d h
  · rintro ⟨hd, rfl | rfl⟩
    · exact (digitValue?_digitChar hd).1
    · exact (digitValue?_digitChar hd).2

theorem digit?_eq_some_iff {base : Nat} (hbase : base ≤ 16) {c : Char} {d : Nat} :
    digit? base c = some d ↔ IsDigit base c d := by
  unfold digit?
  rw [Option.filter_eq_some_iff, digitValue?_eq_some_iff, decide_eq_true_iff]
  constructor
  · rintro ⟨⟨_, hc⟩, hd⟩
    exact ⟨hd, hc⟩
  · rintro ⟨hd, hc⟩
    exact ⟨⟨Nat.lt_of_lt_of_le hd hbase, hc⟩, hd⟩

/-! ## Runs of digits -/

theorem ofDigits_reverse_cons (base d : Nat) (digits : List Nat) :
    Nat.ofDigits base (d :: digits).reverse =
      d * base ^ digits.length + Nat.ofDigits base digits.reverse := by
  rw [List.reverse_cons, Nat.ofDigits_append, Nat.ofDigits_singleton, List.length_reverse]
  ring

/-- Reading digits behind others shifts the value of those by one place a digit. -/
theorem natFrom?_eq_some_iff {base : Nat} (hbase : base ≤ 16) {cs : List Char} {value n : Nat} :
    natFrom? base cs value = some n ↔ ∃ digits, List.Forall₂ (IsDigit base) cs digits ∧
      n = value * base ^ digits.length + Nat.ofDigits base digits.reverse := by
  -- the value changes with every digit, so the induction keeps it general
  induction cs generalizing value with
  | nil => simp [natFrom?, List.forall₂_nil_left_iff, eq_comm]
  | cons c cs ih =>
    simp only [List.forall₂_cons_left_iff, natFrom?]
    constructor
    · intro h
      cases hc : digit? base c with
      | none => simp [hc] at h
      | some d =>
        rw [hc] at h
        obtain ⟨digits, hdigits, rfl⟩ := ih.mp h
        refine ⟨d :: digits, ⟨d, digits, (digit?_eq_some_iff hbase).mp hc, hdigits, rfl⟩, ?_⟩
        rw [ofDigits_reverse_cons, List.length_cons]
        ring
    · rintro ⟨_, ⟨d, digits, hd, hdigits, rfl⟩, rfl⟩
      rw [(digit?_eq_some_iff hbase).mpr hd]
      refine ih.mpr ⟨digits, hdigits, ?_⟩
      rw [ofDigits_reverse_cons, List.length_cons]
      ring

theorem nat?_eq_some_iff {base : Nat} (hbase : base ≤ 16) {cs : List Char} {n : Nat} :
    nat? base cs = some n ↔ Spells base cs n := by
  cases cs with
  | nil => simp [nat?, Spells, List.forall₂_nil_left_iff]
  | cons c cs =>
    simp only [nat?, natFrom?_eq_some_iff hbase, Spells, Nat.zero_mul, Nat.zero_add]
    constructor
    · rintro ⟨digits, hdigits, hn⟩
      have hne : digits ≠ [] := by
        rintro rfl
        cases hdigits
      exact ⟨digits, hne, hdigits, hn⟩
    · rintro ⟨digits, -, hdigits, hn⟩
      exact ⟨digits, hdigits, hn⟩

theorem Spells.unique {base : Nat} (hbase : base ≤ 16) {cs : List Char} {m n : Nat}
    (hm : Spells base cs m) (hn : Spells base cs n) : m = n :=
  Option.some.inj
    (((nat?_eq_some_iff hbase).mpr hm).symm.trans ((nat?_eq_some_iff hbase).mpr hn))

/-- A run of digits starts with a digit. -/
theorem Spells.exists_isDigit {base : Nat} {cs : List Char} {n : Nat} (h : Spells base cs n) :
    ∃ c rest d, cs = c :: rest ∧ IsDigit base c d := by
  obtain ⟨digits, hne, hdigits, -⟩ := h
  cases hdigits with
  | nil => exact absurd rfl hne
  | cons hd _ => exact ⟨_, _, _, rfl, hd⟩

/-- Characters that each are a digit spell a number together. -/
theorem exists_spells {base : Nat} {cs : List Char} (hne : cs ≠ [])
    (h : ∀ c ∈ cs, ∃ d, IsDigit base c d) : ∃ n, Spells base cs n := by
  have hdigits : ∃ digits, List.Forall₂ (IsDigit base) cs digits := by
    clear hne
    induction cs with
    | nil => exact ⟨[], .nil⟩
    | cons c cs ih =>
      obtain ⟨d, hd⟩ := h c List.mem_cons_self
      obtain ⟨digits, hdigits⟩ := ih fun c hc => h c (List.mem_cons_of_mem _ hc)
      exact ⟨d :: digits, .cons hd hdigits⟩
  obtain ⟨digits, hdigits⟩ := hdigits
  refine ⟨_, digits, ?_, hdigits, rfl⟩
  rintro rfl
  cases hdigits
  exact hne rfl

/-- A digit is none of the characters that are not. -/
theorem IsDigit.ne {base : Nat} (hbase : base ≤ 16) {c c' : Char} {d : Nat}
    (h : IsDigit base c d) (hc' : digitValue? c' = none) : c ≠ c' := by
  rintro rfl
  rw [digitValue?_eq_some_iff.mpr ⟨Nat.lt_of_lt_of_le h.1 hbase, h.2⟩] at hc'
  cases hc'

/-- Digits need no sign to be read as an integer. -/
theorem Spells.int?_eq {base : Nat} (hbase : base ≤ 16) {cs : List Char} {n : Nat}
    (h : Spells base cs n) : int? base cs = some (n : Int) := by
  obtain ⟨c, rest, d, rfl, hd⟩ := h.exists_isDigit
  unfold int?
  split
  · next hc => exact absurd (List.cons.inj hc).1 (hd.ne hbase (by decide))
  · next hc => exact absurd (List.cons.inj hc).1 (hd.ne hbase (by decide))
  · rw [(nat?_eq_some_iff hbase).mpr h]
    rfl

/-! ## Signs and bases -/

/-- A decimal run is not taken for a hexadecimal one. -/
theorem not_spells_decimal {x : Char} (hx : x = 'x' ∨ x = 'X') {cs : List Char} {n : Nat} :
    ¬ Spells 10 ('0' :: x :: cs) n := by
  rintro ⟨digits, -, hdigits, -⟩
  obtain ⟨_, _, -, hrest, rfl⟩ := List.forall₂_cons_left_iff.mp hdigits
  obtain ⟨_, _, hd, -, rfl⟩ := List.forall₂_cons_left_iff.mp hrest
  rcases hx with rfl | rfl
  · exact hd.ne (by decide) (by decide) rfl
  · exact hd.ne (by decide) (by decide) rfl

/-- A number text without a sign does not start with one. -/
theorem Magnitude.exists_ne_minus {cs : List Char} {n : Nat} (h : Magnitude cs n) :
    ∃ c rest, cs = c :: rest ∧ c ≠ '-' := by
  cases h with
  | decimal h =>
    obtain ⟨c, rest, d, rfl, hd⟩ := h.exists_isDigit
    exact ⟨c, rest, rfl, hd.ne (by decide) (by decide)⟩
  | hexadecimal => exact ⟨'0', _, rfl, by decide⟩

theorem filter_natCast {value? : Option Int} {n : Nat} (h : value? = some (n : Int)) :
    (value?.filter fun v => -0x8000000000000000 ≤ v ∧ v < 0x8000000000000000) =
      if n < 2 ^ 63 then some (n : Int) else none := by
  rw [h, Option.filter_some]
  by_cases hn : n < 2 ^ 63
  · rw [if_pos hn, if_pos (decide_eq_true (by omega))]
  · rw [if_neg hn, if_neg (by rw [decide_eq_true_iff]; omega)]

theorem Magnitude.unsignedValue?_eq {cs : List Char} {n : Nat} (h : Magnitude cs n) :
    unsignedValue? cs = if n < 2 ^ 63 then some (n : Int) else none := by
  apply filter_natCast
  cases h with
  | decimal h =>
    split
    · exact absurd h (not_spells_decimal (Or.inl rfl))
    · exact absurd h (not_spells_decimal (Or.inr rfl))
    · exact h.int?_eq (by decide)
  | hexadecimal hx h =>
    rcases hx with rfl | rfl
    · exact h.int?_eq (by decide)
    · exact h.int?_eq (by decide)

/-- **A number text is read as the integer it stands for**, provided that the
absolute value is below `2 ^ 63`, and not read at all otherwise. -/
theorem Denotes.numberValue?_eq {cs : List Char} {value : Int} (h : Denotes cs value) :
    numberValue? cs = if value.natAbs < 2 ^ 63 then some value else none := by
  cases h with
  | positive h =>
    obtain ⟨c, rest, rfl, hc⟩ := h.exists_ne_minus
    unfold numberValue?
    split
    · next heq => exact absurd (List.cons.inj heq).1 hc
    · exact h.unsignedValue?_eq
  | @negative _ n h =>
    rw [numberValue?, h.unsignedValue?_eq, Int.natAbs_neg, Int.natAbs_natCast]
    split <;> rfl

/-! ## One integer for every number text -/

theorem Magnitude.unique {cs : List Char} {m n : Nat} (hm : Magnitude cs m)
    (hn : Magnitude cs n) : m = n := by
  cases hm with
  | decimal hm =>
    cases hn with
    | decimal hn => exact hm.unique (by decide) hn
    | hexadecimal hx => exact absurd hm (not_spells_decimal hx)
  | hexadecimal hx hm =>
    cases hn with
    | decimal hn => exact absurd hn (not_spells_decimal hx)
    | hexadecimal _ hn => exact hm.unique (by decide) hn

theorem Denotes.unique {cs : List Char} {v w : Int} (hv : Denotes cs v) (hw : Denotes cs w) :
    v = w := by
  cases hv with
  | positive hm =>
    cases hw with
    | positive hn => rw [hm.unique hn]
    | negative =>
      obtain ⟨c, rest, heq, hc⟩ := hm.exists_ne_minus
      exact absurd (List.cons.inj heq).1.symm hc
  | negative hm =>
    cases hw with
    | positive hn =>
      obtain ⟨c, rest, heq, hc⟩ := hn.exists_ne_minus
      exact absurd (List.cons.inj heq).1.symm hc
    | negative hn => rw [hm.unique hn]

theorem Magnitude.exists_denotes {sign cs : List Char} (hsign : IsSign sign)
    (h : ∃ n, Magnitude cs n) : ∃ v, Denotes (sign ++ cs) v := by
  obtain ⟨n, h⟩ := h
  rcases hsign with rfl | rfl
  · exact ⟨n, .positive h⟩
  · exact ⟨-n, .negative h⟩

theorem exists_isDigit_decimal {c : Char} (h : Text.isDigit c) : ∃ d, IsDigit 10 c d := by
  simp only [Text.isDigit, Bool.and_eq_true, decide_eq_true_iff] at h
  refine ⟨c.toNat - '0'.toNat, (digit?_eq_some_iff (by decide)).mp ?_⟩
  have hle : c.toNat ≤ 57 := toNat_le_of_le h.2
  have hzero : '0'.toNat = 48 := rfl
  unfold digit? digitValue?
  rw [if_pos h, Option.filter_some, if_pos (decide_eq_true (by omega))]

theorem exists_isDigit_hexadecimal {c : Char} (h : Text.isHexDigit c) : ∃ d, IsDigit 16 c d := by
  simp only [Text.isHexDigit, Text.isDigit, Bool.or_eq_true, Bool.and_eq_true,
    decide_eq_true_iff] at h
  have hvalue : ∃ d, digitValue? c = some d := by
    unfold digitValue?
    rcases h with (h | h) | h
    · exact ⟨_, if_pos h⟩
    · rw [if_pos h]
      split <;> exact ⟨_, rfl⟩
    · rw [if_pos h]
      split
      · exact ⟨_, rfl⟩
      · split <;> exact ⟨_, rfl⟩
  obtain ⟨d, hd⟩ := hvalue
  exact ⟨d, digitValue?_eq_some_iff.mp hd⟩

/-- **Every number token stands for an integer.** -/
theorem exists_denotes_of_matches {terminal : Terminal} {cs : List Char}
    (h : terminal.Matches cs) (hnumber : terminal = .decimal ∨ terminal = .hexadecimal) :
    ∃ v, Denotes cs v := by
  cases h with
  | decimal hsign hne hdigits =>
    obtain ⟨n, hn⟩ := exists_spells hne fun c hc => exists_isDigit_decimal (hdigits c hc)
    exact Magnitude.exists_denotes hsign ⟨n, .decimal hn⟩
  | hexadecimal hsign hx hne hdigits =>
    obtain ⟨n, hn⟩ := exists_spells hne fun c hc => exists_isDigit_hexadecimal (hdigits c hc)
    exact Magnitude.exists_denotes hsign ⟨n, .hexadecimal hx hn⟩
  | _ => rcases hnumber with h | h <;> cases h

end Mips.Numeral
