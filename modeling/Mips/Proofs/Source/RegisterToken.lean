import Mips.Proofs.Instruction.Text

/-!
# Register tokens

Which machine register a register token stands for.  `Register.IsTokenOf` lists the tokens
of a register: its name, and its number in decimal digits with any zeros in front.  A token
is first tried as a number.  A number from 256 on is taken for a name, but it is the name of
no register, so nothing is found by it (`Register.index?_ofToken_eq_some_iff`).

A register that has been read is displayed by a text that reads as the same register again
(`Register.ofToken_text`).
-/
namespace Mips.Register

/-- The register tokens that stand for machine register `n`. -/
inductive IsTokenOf (n : Nat) : List Char → Prop
  | name {name : String} (h : names[n]? = some name) : IsTokenOf n ('$' :: name.toList)
  | number {digits : List Char} (h : Numeral.Spells 10 digits n) (hn : n < 32) :
      IsTokenOf n ('$' :: digits)

variable {text token : List Char} {n : Nat}

/-- **The register of a token**: it is found by its name and by its number, and by nothing
else. -/
theorem index?_ofToken_eq_some_iff (htoken : Terminal.register.Matches token) :
    (ofToken token).index? = some n ↔ IsTokenOf n token := by
  rw [index?_eq_some_iff]
  constructor
  · intro h
    have hrenders := renders_ofToken htoken
    generalize ofToken token = register at h hrenders
    cases hrenders with
    | numbered _ hdigits =>
      cases h with
      | numbered hn => exact .number hdigits hn
    | named =>
      cases h with
      | named hname =>
        have hnamed := IsTokenOf.name hname
        rwa [String.toList_ofList] at hnamed
  · intro h
    cases h with
    | name hname =>
      obtain ⟨-, -, hnamed⟩ := ofToken_of_mem_names _ (List.mem_of_getElem? hname)
      rw [hnamed]
      exact .named hname
    | number hdigits hn =>
      rw [← (Renders.numbered htoken hdigits (by omega)).eq_ofToken]
      exact .numbered hn

/-- A run of digits begins with none of the characters that are no digits. -/
theorem head?_ne_of_spells {c : Char} (h : Numeral.Spells 10 text n)
    (hc : Numeral.digitValue? c = none) : text.head? ≠ some c := by
  obtain ⟨first, rest, d, rfl, hd⟩ := h.exists_isDigit
  intro hhead
  exact hd.ne (by decide) hc (Option.some.inj hhead)

/-! ## Displayed registers -/

theorem toList_text_numbered (n : Nat) :
    (numbered n).text.toList = '$' :: Nat.toDigits 10 n := by
  simp [Register.text, Numeral.decimal]

theorem toList_text_named (text : List Char) :
    (named (String.ofList text)).text.toList = '$' :: text := by
  simp [Register.text]

theorem number?_toDigits (h : n < 256) : number? (Nat.toDigits 10 n) = some n := by
  have hspells : Numeral.Spells 10 (Nat.toDigits 10 n) n := Numeral.spells_toDigits (by decide) n
  exact (number?_eq_some_iff (head?_ne_of_spells hspells (by decide))).mpr ⟨hspells, h⟩

/-- **A register is read again from the text that it is displayed by.** -/
theorem ofToken_text (token : List Char) :
    ofToken (ofToken token).text.toList = ofToken token := by
  have hplain : (token.dropWhile (· == '$')).dropWhile (· == '$') =
      token.dropWhile (· == '$') :=
    List.dropWhile_eq_self_iff.mpr (List.dropWhile_get_zero_not _ _)
  -- dollar signs in front do not matter, so let there be one
  have hsame : ofToken token = ofToken ('$' :: token.dropWhile (· == '$')) := by
    unfold ofToken
    rw [List.dropWhile_cons_of_pos (by decide), hplain]
  rw [hsame]
  generalize token.dropWhile (· == '$') = text at hplain ⊢
  cases hnumber : number? text with
  | some k =>
    have hspells : Numeral.Spells 10 (Nat.toDigits 10 k) k :=
      Numeral.spells_toDigits (by decide) k
    have hdigits := dropWhile_of_head? (head?_ne_of_spells hspells (by decide))
    rw [ofToken_of_number? hplain hnumber, toList_text_numbered]
    exact ofToken_of_number? hdigits (number?_toDigits (lt_of_number? hnumber))
  | none =>
    have hnamed := ofToken_of_not_number? hplain hnumber
    rw [hnamed, toList_text_named]
    exact hnamed

/-- **A register token stands for at most one register.**  It stands for register `n` exactly
if it is the name of that register, or if digits behind the dollar sign spell `n` and there
is such a register; any other register token stands for none.  Displaying the register that
has been read and reading that again changes nothing. -/
theorem register_tokens_resolve (h : Terminal.register.Matches token) :
    (∀ n, (ofToken token).index? = some n ↔ IsTokenOf n token) ∧
    ((ofToken token).index? = none ↔ ∀ n, ¬ IsTokenOf n token) ∧
    ofToken (ofToken token).text.toList = ofToken token := by
  have hindex : ∀ n, (ofToken token).index? = some n ↔ IsTokenOf n token := fun _ =>
    index?_ofToken_eq_some_iff h
  refine ⟨hindex, ?_, ofToken_text token⟩
  simp only [← hindex]
  exact Option.eq_none_iff_forall_ne_some

theorem register_tokens_resolve_of_digits :
    (ofToken ['$', '0', '3', '1']).index? = some 31 ∧
      (ofToken ['$', 's', 'p']).index? = some 29 ∧
      (∀ n, ¬ IsTokenOf n ['$', '3', '2']) ∧ (∀ n, ¬ IsTokenOf n ['$', '2', '5', '6']) ∧
      ofToken (ofToken ['$', '2', '5', '6']).text.toList = .named "256" := by
  have hmatches : ∀ text ∈ [['0', '3', '1'], ['s', 'p'], ['3', '2'], ['2', '5', '6']],
      Terminal.register.Matches ('$' :: text) := by
    intro text htext
    have hparts : text ≠ [] ∧ text.all Text.isAlphanumeric = true := by
      simp only [List.mem_cons, List.not_mem_nil, or_false] at htext
      rcases htext with rfl | rfl | rfl | rfl <;> decide
    exact .register hparts.1 (List.all_eq_true.mp hparts.2)
  have hspells : Numeral.Spells 10 ['0', '3', '1'] 31 :=
    (Numeral.nat?_eq_some_iff (by decide)).mp (by decide)
  have hname : names[29]? = some "sp" := by decide
  refine ⟨?_, ?_, ?_, ?_, ?_⟩
  · exact ((register_tokens_resolve (hmatches _ (by simp))).1 31).mpr (.number hspells (by decide))
  · exact ((register_tokens_resolve (hmatches _ (by simp))).1 29).mpr (.name hname)
  · exact (register_tokens_resolve (hmatches _ (by simp))).2.1.mp (by decide)
  · exact (register_tokens_resolve (hmatches _ (by simp))).2.1.mp (by decide)
  · exact (register_tokens_resolve (hmatches _ (by simp))).2.2.trans (by decide)

end Mips.Register
