import Mips.Proofs.Source.Lexing

/-!
# The longest match

The reader of lexemes goes by the first character of a text.  What it finds is the
longest text of any kind of token that the given text starts with, and the kind of that
text (`Lexeme.next?_eq_some_iff`).  In particular no text is of two kinds
(`Terminal.Matches.unique`).

A token that stands in front of a delimiter, which is a blank or a punctuation mark, is
read as it stands: no longer token has a delimiter in it (`Lexeme.next?_of_delimited`).
-/
namespace Mips

/-! ## Characters -/

namespace Text

/-- The characters that are a token on their own, and the blanks.  Every other token
ends in front of one. -/
def isDelimiter (c : Char) : Bool :=
  isBlank c || c == '(' || c == ')' || c == ',' || c == ':'

theorem isDelimiter_of_isBlank {c : Char} (h : isBlank c) : isDelimiter c := by
  simp only [isDelimiter, h, Bool.true_or]

/-- The characters of names are among the first 128. -/
theorem toNat_lt_of_isNamePart {c : Char} (h : isNamePart c) : c.toNat < 128 := by
  have hle : ∀ {c' : Char}, c ≤ c' → c'.toNat < 128 → c.toNat < 128 := fun hc hlt =>
    Nat.lt_of_le_of_lt (UInt32.le_iff_toNat_le.mp hc) hlt
  simp only [isNamePart, isNameStart, isLetter, isDigit, Bool.or_eq_true, Bool.and_eq_true,
    decide_eq_true_iff, beq_iff_eq] at h
  rcases h with (((hlower | hupper) | rfl) | rfl) | hdigit
  · exact hle hlower.2 (by decide)
  · exact hle hupper.2 (by decide)
  · decide
  · decide
  · exact hle hdigit.2 (by decide)

/-- The classes of characters that tokens are made of, compared one character at a
time. -/
theorem classes_ofNat : ∀ n < 128, isNamePart (Char.ofNat n) →
    ¬ isDelimiter (Char.ofNat n) ∧ (isDigit (Char.ofNat n) → ¬ isNameStart (Char.ofNat n)) := by
  decide +kernel

theorem not_isDelimiter_of_isNamePart {c : Char} (h : isNamePart c) : ¬ isDelimiter c := by
  have hc := classes_ofNat c.toNat (toNat_lt_of_isNamePart h)
  rw [Char.ofNat_toNat] at hc
  exact (hc h).1

theorem isNamePart_of_isDigit {c : Char} (h : isDigit c) : isNamePart c := by
  unfold isNamePart
  rw [h, Bool.or_true]

theorem isNamePart_of_isNameStart {c : Char} (h : isNameStart c) : isNamePart c := by
  unfold isNamePart
  rw [h, Bool.true_or]

theorem isNamePart_of_isAlphanumeric {c : Char} (h : isAlphanumeric c) : isNamePart c := by
  simp only [isNamePart, isNameStart, isAlphanumeric, Bool.or_eq_true] at h ⊢
  exact h.imp_left fun hletter => .inl (.inl hletter)

theorem isNamePart_of_isHexDigit {c : Char} (h : isHexDigit c) : isNamePart c := by
  have hlower : ∀ {c' : Char}, c' ≤ 'f' → c' ≤ 'z' := fun hc => Char.le_trans hc (by decide)
  have hupper : ∀ {c' : Char}, c' ≤ 'F' → c' ≤ 'Z' := fun hc => Char.le_trans hc (by decide)
  simp only [isNamePart, isNameStart, isLetter, isHexDigit, Bool.or_eq_true, Bool.and_eq_true,
    decide_eq_true_iff] at h ⊢
  rcases h with (hdigit | hc) | hc
  · exact .inr hdigit
  · exact .inl (.inl (.inl (.inl ⟨hc.1, hlower hc.2⟩)))
  · exact .inl (.inl (.inl (.inr ⟨hc.1, hupper hc.2⟩)))

theorem isNamePart_of_eq_x {c : Char} (h : c = 'x' ∨ c = 'X') : isNamePart c := by
  rcases h with rfl | rfl <;> decide

theorem not_isNameStart_of_isDigit {c : Char} (h : isDigit c) : ¬ isNameStart c := by
  have hpart := isNamePart_of_isDigit h
  have hc := classes_ofNat c.toNat (toNat_lt_of_isNamePart hpart)
  rw [Char.ofNat_toNat] at hc
  exact (hc hpart).2 h

end Text

namespace Lexeme

/-! ## Runs -/

/-- A run takes at least the characters of its class that are there. -/
theorem run?_append {terminal : Terminal} {front part rest : List Char} {isPart : Char → Bool}
    (hne : part ≠ []) (hpart : ∀ c ∈ part, isPart c) :
    run? terminal front isPart (part ++ rest) =
      some ⟨terminal, front ++ (part ++ rest.takeWhile isPart), rest.dropWhile isPart⟩ := by
  unfold run?
  rw [List.takeWhile_append_of_pos hpart, List.dropWhile_append_of_pos hpart]
  split
  · next hnil => exact absurd (List.append_eq_nil_iff.mp hnil).1 hne
  · rfl

/-- The lexeme `lexeme?` has at least the text `text` at its front, and it is of the
kind `terminal` if that is all of its text. -/
def Reaches (lexeme? : Option Lexeme) (terminal : Terminal) (text : List Char) : Prop :=
  ∃ lexeme, lexeme? = some lexeme ∧ text.length ≤ lexeme.text.length ∧
    (lexeme.text.length = text.length → lexeme.terminal = terminal)

theorem reaches_run? {terminal : Terminal} {front part rest : List Char} {isPart : Char → Bool}
    (hne : part ≠ []) (hpart : ∀ c ∈ part, isPart c) :
    Reaches (run? terminal front isPart (part ++ rest)) terminal (front ++ part) := by
  refine ⟨_, run?_append hne hpart, ?_, fun _ => rfl⟩
  simp only [List.length_append]
  omega

/-! ## Numbers -/

theorem hexadecimal?_cons {x : Char} (front rest : List Char) (hx : x = 'x' ∨ x = 'X') :
    hexadecimal? front ('0' :: x :: rest) =
      run? .hexadecimal (front ++ ['0', x]) Text.isHexDigit rest := by
  rcases hx with rfl | rfl <;> rfl

theorem reaches_hexadecimal {x : Char} {front digits rest : List Char} (hx : x = 'x' ∨ x = 'X')
    (hne : digits ≠ []) (hdigits : ∀ c ∈ digits, Text.isHexDigit c) :
    Reaches (number? front ('0' :: x :: digits ++ rest)) .hexadecimal
      (front ++ '0' :: x :: digits) := by
  have hrun : Reaches (run? .hexadecimal (front ++ ['0', x]) Text.isHexDigit (digits ++ rest))
      .hexadecimal (front ++ ['0', x] ++ digits) := reaches_run? hne hdigits
  obtain ⟨lexeme, hlexeme, hlength, hkind⟩ := hrun
  refine ⟨lexeme, ?_, by simpa using hlength, by simpa using hkind⟩
  unfold number?
  rw [List.cons_append, List.cons_append, hexadecimal?_cons _ _ hx, hlexeme]

/-- Behind a zero and an `x` there are no decimal digits, so a hexadecimal number in the
same place is longer. -/
theorem length_lt_of_hexadecimal? {front digits rest : List Char} {lexeme : Lexeme}
    (hdigits : ∀ c ∈ digits, Text.isDigit c)
    (h : hexadecimal? front (digits ++ rest) = some lexeme) :
    (front ++ digits).length < lexeme.text.length := by
  have hshort : ∀ {x : Char} {behind : List Char}, ¬ Text.isDigit x →
      digits ++ rest = '0' :: x :: behind → digits.length ≤ 1 := by
    intro x behind hx hcons
    match digits, hdigits, hcons with
    | [], _, _ => exact Nat.zero_le 1
    | [_], _, _ => exact Nat.le_refl 1
    | _ :: c :: _, hdigits, hcons =>
      cases hcons
      exact absurd (hdigits x (by simp)) hx
  have hlong : ∀ {x : Char} {behind : List Char},
      run? .hexadecimal (front ++ ['0', x]) Text.isHexDigit behind = some lexeme →
        front.length + 2 < lexeme.text.length := by
    intro x behind hrun
    obtain ⟨part, hne, -, rfl⟩ := eq_of_run? hrun
    have hpos := List.length_pos_iff.mpr hne
    simp only [List.length_append, List.length_cons, List.length_nil]
    omega
  rw [List.length_append]
  unfold hexadecimal? at h
  split at h
  · next behind hcons =>
    have hle := hshort (by decide) hcons
    have hlt := hlong h
    omega
  · next behind hcons =>
    have hle := hshort (by decide) hcons
    have hlt := hlong h
    omega
  · cases h

theorem reaches_decimal {front digits rest : List Char} (hne : digits ≠ [])
    (hdigits : ∀ c ∈ digits, Text.isDigit c) :
    Reaches (number? front (digits ++ rest)) .decimal (front ++ digits) := by
  unfold number?
  cases hhex : hexadecimal? front (digits ++ rest) with
  | some lexeme =>
    have hlt := length_lt_of_hexadecimal? hdigits hhex
    exact ⟨lexeme, rfl, Nat.le_of_lt hlt, fun heq => absurd heq (Nat.ne_of_gt hlt)⟩
  | none => exact reaches_run? hne hdigits

/-! ## All kinds of tokens -/

/-- A character of a name starts a name or a number, for it is no mark and no sign. -/
theorem next?_of_isNamePart {c : Char} (rest : List Char) (hc : Text.isNamePart c) :
    next? (c :: rest) =
      if Text.isNameStart c then
        some ⟨.identifier, c :: rest.takeWhile Text.isNamePart, rest.dropWhile Text.isNamePart⟩
      else number? [] (c :: rest) := by
  have hne : ∀ {mark : Char}, ¬ Text.isNamePart mark → c ≠ mark := fun hmark heq =>
    hmark (heq ▸ hc)
  exact next?.eq_8 c rest (hne (by decide)) (hne (by decide)) (hne (by decide))
    (hne (by decide)) (hne (by decide)) (hne (by decide))

theorem next?_of_isNameStart {c : Char} (rest : List Char) (hc : Text.isNameStart c) :
    next? (c :: rest) =
      some ⟨.identifier, c :: rest.takeWhile Text.isNamePart, rest.dropWhile Text.isNamePart⟩ := by
  rw [next?_of_isNamePart rest (Text.isNamePart_of_isNameStart hc), if_pos hc]

theorem next?_of_isDigit {c : Char} (rest : List Char) (hc : Text.isDigit c) :
    next? (c :: rest) = number? [] (c :: rest) := by
  rw [next?_of_isNamePart rest (Text.isNamePart_of_isDigit hc),
    if_neg (Text.not_isNameStart_of_isDigit hc)]

/-- **Every token in front is reached**: what is read off a text is at least as long as
any token that the text starts with. -/
theorem reaches_next? {terminal : Terminal} {text : List Char} (rest : List Char)
    (h : terminal.Matches text) : Reaches (next? (text ++ rest)) terminal text := by
  cases h with
  | openParen | closeParen | comma | colon => exact ⟨_, rfl, Nat.le_refl _, fun _ => rfl⟩
  | register hne hname => exact reaches_run? hne hname
  | identifier hc hrest =>
    rw [List.cons_append, next?_of_isNameStart _ hc, List.takeWhile_append_of_pos hrest]
    refine ⟨_, rfl, ?_, fun _ => rfl⟩
    simp only [List.length_cons, List.length_append]
    omega
  | decimal hsign hne hdigits =>
    rcases hsign with rfl | rfl
    · obtain ⟨d, digits, rfl⟩ := List.exists_cons_of_ne_nil hne
      rw [List.nil_append, List.cons_append, next?_of_isDigit _ (hdigits d List.mem_cons_self)]
      exact reaches_decimal hne hdigits
    · exact reaches_decimal hne hdigits
  | hexadecimal hsign hx hne hdigits =>
    rcases hsign with rfl | rfl
    · rw [List.nil_append, List.cons_append, next?_of_isDigit _ (by decide)]
      exact reaches_hexadecimal hx hne hdigits
    · exact reaches_hexadecimal hx hne hdigits

end Lexeme

/-- No text is of two kinds. -/
theorem Terminal.Matches.unique {terminal terminal' : Terminal} {text : List Char}
    (h : terminal.Matches text) (h' : terminal'.Matches text) : terminal = terminal' := by
  obtain ⟨lexeme, hnext, hle, hkind⟩ := Lexeme.reaches_next? [] h
  obtain ⟨lexeme', hnext', -, hkind'⟩ := Lexeme.reaches_next? [] h'
  cases hnext.symm.trans hnext'
  have hlength := congrArg List.length (Lexeme.text_append_rest hnext)
  rw [List.append_nil, List.length_append] at hlength
  have heq : lexeme.text.length = text.length := by omega
  exact (hkind heq).symm.trans (hkind' heq)

namespace Lexeme

/-- **The reader of lexemes finds the longest match.** -/
theorem next?_eq_some_iff {cs : List Char} {lexeme : Lexeme} : next? cs = some lexeme ↔
    lexeme.text ++ lexeme.rest = cs ∧ lexeme.terminal.Matches lexeme.text ∧
      ∀ (terminal : Terminal) (text rest : List Char), terminal.Matches text →
        text ++ rest = cs → text.length ≤ lexeme.text.length := by
  constructor
  · intro h
    refine ⟨text_append_rest h, matches_of_next? h, ?_⟩
    rintro terminal text rest hmatches rfl
    obtain ⟨lexeme', hnext, hle, -⟩ := reaches_next? rest hmatches
    cases hnext.symm.trans h
    exact hle
  · rintro ⟨rfl, hmatches, hlongest⟩
    obtain ⟨lexeme', hnext, hle, hkind⟩ := reaches_next? lexeme.rest hmatches
    have happ := text_append_rest hnext
    have heq : lexeme'.text.length = lexeme.text.length :=
      Nat.le_antisymm (hlongest _ _ _ (matches_of_next? hnext) happ) hle
    obtain ⟨htext, hrest⟩ := List.append_inj happ heq
    rw [hnext, Option.some.injEq]
    obtain ⟨terminal', text', rest'⟩ := lexeme'
    obtain ⟨terminal, text, rest⟩ := lexeme
    cases hkind heq
    cases htext
    cases hrest
    rfl

end Lexeme

/-! ## Delimiters -/

/-- A sign is no delimiter. -/
theorem IsSign.not_isDelimiter {sign : List Char} (h : IsSign sign) :
    ∀ c ∈ sign, ¬ Text.isDelimiter c := by
  rcases h with rfl | rfl
  · simp
  · rw [List.forall_mem_singleton]
    decide

namespace Terminal.Matches

variable {terminal : Terminal} {text : List Char}

theorem ne_nil (h : terminal.Matches text) : text ≠ [] := by
  cases h with
  | decimal _ hne _ => exact List.append_ne_nil_of_right_ne_nil _ hne
  | hexadecimal => exact List.append_ne_nil_of_right_ne_nil _ (List.cons_ne_nil _ _)
  | _ => exact List.cons_ne_nil _ _

/-- A token is a single mark, or it has no delimiter in it. -/
theorem eq_singleton_or (h : terminal.Matches text) :
    (∃ c, text = [c] ∧ ¬ Text.isBlank c) ∨ ∀ c ∈ text, ¬ Text.isDelimiter c := by
  have hpart : ∀ {c : Char}, Text.isNamePart c → ¬ Text.isDelimiter c :=
    Text.not_isDelimiter_of_isNamePart
  cases h with
  | openParen | closeParen | comma | colon => exact .inl ⟨_, rfl, by decide⟩
  | register hne hname =>
    refine .inr (List.forall_mem_cons.mpr ⟨by decide, fun c hc => ?_⟩)
    exact hpart (Text.isNamePart_of_isAlphanumeric (hname c hc))
  | identifier hfirst hrest =>
    refine .inr (List.forall_mem_cons.mpr ⟨?_, fun c hc => hpart (hrest c hc)⟩)
    exact hpart (Text.isNamePart_of_isNameStart hfirst)
  | decimal hsign hne hdigits =>
    refine .inr (List.forall_mem_append.mpr ⟨hsign.not_isDelimiter, fun c hc => ?_⟩)
    exact hpart (Text.isNamePart_of_isDigit (hdigits c hc))
  | hexadecimal hsign hx hne hdigits =>
    have hx' : ¬ Text.isDelimiter _ := hpart (Text.isNamePart_of_eq_x hx)
    refine .inr (List.forall_mem_append.mpr ⟨hsign.not_isDelimiter, ?_⟩)
    refine List.forall_mem_cons.mpr ⟨by decide, List.forall_mem_cons.mpr ⟨hx', fun c hc => ?_⟩⟩
    exact hpart (Text.isNamePart_of_isHexDigit (hdigits c hc))

theorem not_isBlank (h : terminal.Matches text) : ∀ c ∈ text, ¬ Text.isBlank c := by
  rcases h.eq_singleton_or with ⟨mark, rfl, hmark⟩ | hnone
  · simpa using hmark
  · intro c hc hblank
    exact hnone c hc (Text.isDelimiter_of_isBlank hblank)

end Terminal.Matches

namespace Lexeme

/-- The end of the text, or a delimiter. -/
def Delimited (rest : List Char) : Prop :=
  ∀ c ∈ rest.head?, Text.isDelimiter c

/-- **A token that stands in front of a delimiter is read as it stands.** -/
theorem next?_of_delimited {terminal : Terminal} {text rest : List Char}
    (h : terminal.Matches text) (hrest : Delimited rest) :
    next? (text ++ rest) = some ⟨terminal, text, rest⟩ := by
  refine next?_eq_some_iff.mpr ⟨rfl, h, fun terminal' text' rest' h' happ => ?_⟩
  by_contra hlonger
  have hlt : text.length < text'.length := Nat.not_le.mp hlonger
  -- a longer token goes on into `rest`, so it holds a delimiter and is no single mark
  obtain ⟨more, rfl, rfl⟩ : ∃ more, text' = text ++ more ∧ rest = more ++ rest' := by
    rcases List.append_eq_append_iff.mp happ with ⟨more, rfl, rfl⟩ | ⟨more, rfl, rfl⟩
    · rw [List.length_append] at hlt
      omega
    · exact ⟨more, rfl, rfl⟩
  cases more with
  | nil => simp at hlt
  | cons c more =>
    have hpos : 0 < text.length := List.length_pos_iff.mpr h.ne_nil
    rcases h'.eq_singleton_or with ⟨mark, hmark, -⟩ | hnone
    · rw [hmark] at hlt
      exact absurd hlt (Nat.not_lt.mpr hpos)
    · exact hnone c (by simp) (hrest c rfl)

end Lexeme
end Mips
