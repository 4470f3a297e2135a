import Mathlib.Logic.Relation
import Mips.Proofs.Assembly.Resolution
import Mips.Proofs.Source.Spelling

/-!
# Numbers in statements

What a statement makes of a number in it depends on the integer that the number stands
for.  `NumericField.Judges` says how: the integer is taken if the field has it in its range,
and otherwise the number is called invalid if it does not fit 64 bits, and out of range if
it does.  `Numeral.TakenFor` collects that for every place where a number can stand, down to
the word of the instruction, from which the same integer is read back.

`numbers_mean_their_integer` is the result for all number texts, with as many zeros in front
as there may be, and no spelling of an integer is treated differently from the others.
-/
namespace Mips

namespace NumericField

/-- The number is in the range of the field. -/
def Holds : NumericField → Int → Prop
  | shiftAmount, v => 0 ≤ v ∧ v ≤ 31
  | immediate, v | offset, v | branchOffset, v => -32768 ≤ v ∧ v ≤ 32767

/-- The result of giving a field the number text `text`, which stands for `v`.  `Shows`
says of an answer that it has the integer in it. -/
structure Judges {α : Type} (field : NumericField) (text : String) (v : Int)
    (result : Except ResolutionError α) (Shows : α → Prop) : Prop where
  accepted_iff : (∃ a, result = .ok a) ↔ field.Holds v
  shows : ∀ a, result = .ok a → Shows a
  invalidNumber_iff : result = .error (.invalidNumber text) ↔ 2 ^ 63 ≤ v.natAbs
  outOfRange_iff : result = .error (.outOfRange field v) ↔ v.natAbs < 2 ^ 63 ∧ ¬ field.Holds v

variable {field : NumericField} {text : String} {v : Int}

theorem holds_iff : field.Holds v ↔ field.min ≤ v ∧ v ≤ field.max := by
  cases field <;> exact Iff.rfl

theorem check_eq_error_iff {error : ResolutionError} :
    field.check v = .error error ↔ ¬ field.Holds v ∧ error = .outOfRange field v := by
  rw [holds_iff]
  unfold check
  split
  · next hout =>
    rw [Except.error.injEq, eq_comm]
    exact (and_iff_right (by omega)).symm
  · next hin => exact iff_of_false nofun fun h => h.1 (by omega)

theorem ofText_eq_ok_iff (h : Numeral.Denotes text.toList v) {w : Int} :
    field.ofText text = .ok w ↔ w = v ∧ field.Holds v := by
  constructor
  · intro hw
    obtain ⟨hdenotes, hrange⟩ := denotes_of_ofText ⟨v, h⟩ hw
    cases hdenotes.unique h
    exact ⟨rfl, holds_iff.mpr hrange⟩
  · rintro ⟨rfl, hholds⟩
    obtain ⟨hmin, hmax⟩ := holds_iff.mp hholds
    exact ofText_of_denotes h hmin hmax

theorem ofText_eq_error_iff (h : Numeral.Denotes text.toList v) {error : ResolutionError} :
    field.ofText text = .error error ↔
      2 ^ 63 ≤ v.natAbs ∧ error = .invalidNumber text ∨
        v.natAbs < 2 ^ 63 ∧ ¬ field.Holds v ∧ error = .outOfRange field v := by
  unfold ofText
  rw [h.numberValue?_eq]
  by_cases hv : v.natAbs < 2 ^ 63
  · rw [if_pos hv]
    show field.check v = .error error ↔ _
    rw [check_eq_error_iff]
    simp only [hv, Nat.not_le.mpr hv, true_and, false_and, false_or]
  · rw [if_neg hv]
    show Except.error _ = Except.error error ↔ _
    rw [Except.error.injEq, eq_comm]
    simp only [hv, Nat.not_lt.mp hv, true_and, false_and, or_false]

theorem judges_ofText (field : NumericField) (h : Numeral.Denotes text.toList v) :
    field.Judges text v (field.ofText text) (· = v) where
  accepted_iff := by simp only [ofText_eq_ok_iff h, exists_eq_left]
  shows _ hw := ((ofText_eq_ok_iff h).mp hw).1
  invalidNumber_iff := by simp [ofText_eq_error_iff h]
  outOfRange_iff := by simp [ofText_eq_error_iff h]

theorem Judges.map {α β : Type} {result : Except ResolutionError α} {Shows : α → Prop}
    {Shows' : β → Prop} {f : α → β} (h : field.Judges text v result Shows)
    (hf : ∀ a, result = .ok a → Shows' (f a)) : field.Judges text v (result.map f) Shows' := by
  refine ⟨?_, ?_, ?_, ?_⟩
  · rw [← h.accepted_iff]
    constructor
    · rintro ⟨b, hb⟩
      obtain ⟨a, ha, -⟩ := map_eq_ok.mp hb
      exact ⟨a, ha⟩
    · rintro ⟨a, ha⟩
      exact ⟨f a, map_eq_ok.mpr ⟨a, ha, rfl⟩⟩
  · intro b hb
    obtain ⟨a, ha, rfl⟩ := map_eq_ok.mp hb
    exact hf a ha
  · rw [map_eq_error, h.invalidNumber_iff]
  · rw [map_eq_error, h.outOfRange_iff]

end NumericField

/-! ## Statements with a number -/

/-- The number in an operation that is written in its statement. -/
def Operation.constant? : Operation → Option Int
  | .sll _ _ shift | .srl _ _ shift => some shift
  | .addi _ _ value | .lw _ _ value | .sw _ _ value => some value
  | _ => none

/-- The instructions that are written with a number, the field that gets it, and how the
operands are written with the registers `a` and `b`. -/
inductive Mnemonic.TakesNumber (a b : Register) :
    Mnemonic → NumericField → (String → List Operand) → Prop
  | shift {m : Mnemonic} {f : Nat → Nat → Nat → Operation} (hm : m.Shift f) :
      TakesNumber a b m .shiftAmount fun text => [.register a, .register b, .number text]
  | addi : TakesNumber a b (.i .addi) .immediate
      fun text => [.register a, .register b, .number text]
  | displaced {m : Mnemonic} {f : Nat → Nat → Int → Operation} (hm : m.Displaced f) :
      TakesNumber a b m .offset fun text => [.register a, .offset text b]

namespace Statement

variable {a b : Register} {i j : Nat} {m : Mnemonic} {field : NumericField}
  {form : String → List Operand}

/-- A statement whose registers exist denotes an operation exactly if its field takes the
number, and then the operation has that number in it. -/
theorem exists_resolve_eq_map (addressOf : String → Option Address) (address : Address)
    (hm : m.TakesNumber a b field form) (ha : a.Denotes i) (hb : b.Denotes j) :
    ∃ f : Int → Operation,
      (∀ text, resolve addressOf address ⟨m.name, form text⟩ = (field.ofText text).map f) ∧
      ∀ v, field.Holds v → (f v).Fits ∧ (f v).constant? = some v := by
  unfold resolve
  dsimp only
  rw [Mnemonic.ofName?_eq_some_iff.mpr rfl]
  cases hm with
  | @shift m f hm =>
    refine ⟨fun w => f i j w.toNat, fun text => ?_, fun v hv => ?_⟩
    · cases hm <;> exact shift_eq_map _ ha hb text
    · obtain ⟨n, rfl⟩ := Int.eq_ofNat_of_zero_le hv.1
      have hn : n < 32 := Nat.lt_succ_of_le (Int.ofNat_le.mp hv.2)
      cases hm <;> exact ⟨⟨ha.lt, hb.lt, hn⟩, rfl⟩
  | addi =>
    refine ⟨_, immediate_eq_map .addi ha hb, fun v hv => ⟨⟨hb.lt, ha.lt, hv.1, ?_⟩, rfl⟩⟩
    exact Int.lt_of_le_of_lt hv.2 (by decide)
  | @displaced m f hm =>
    refine ⟨f i j, fun text => ?_, fun v hv => ?_⟩
    · cases hm <;> exact displaced_eq_map _ ha hb text
    · have hmax : v < 32768 := Int.lt_of_le_of_lt hv.2 (by decide)
      cases hm <;> exact ⟨⟨hb.lt, ha.lt, hv.1, hmax⟩, rfl⟩

end Statement

/-! ## Numbers everywhere -/

/-- A number text is taken for the integer `v` wherever a number can stand. -/
structure Numeral.TakenFor (text : String) (v : Int) : Prop where
  denotes_iff : ∀ w, Numeral.Denotes text.toList w ↔ w = v
  value : numberValue? text.toList = if v.natAbs < 2 ^ 63 then some v else none
  /-- A minus sign does not lead out of the 64-bit numbers. -/
  negated : ∀ digits n, text.toList = '-' :: digits → unsignedValue? digits = some n →
    -2 ^ 63 ≤ -n ∧ -n < 2 ^ 63
  field : ∀ field : NumericField, field.Judges text v (field.ofText text) (· = v)
  statement : ∀ {addressOf : String → Option Address} {address : Address} {a b : Register}
    {i j : Nat} {m : Mnemonic} {field : NumericField} {form : String → List Operand},
    m.TakesNumber a b field form → a.Denotes i → b.Denotes j →
    field.Judges text v (Statement.resolve addressOf address ⟨m.name, form text⟩) fun op =>
      op.constant? = some v ∧ decode op.instruction.encode = .ok op

theorem Numeral.Denotes.takenFor {text : String} {v : Int}
    (h : Numeral.Denotes text.toList v) : Numeral.TakenFor text v where
  denotes_iff w := ⟨fun hw => hw.unique h, fun hw => hw ▸ h⟩
  value := h.numberValue?_eq
  negated digits n htext hn := by
    rw [htext] at h
    cases h with
    | positive hm =>
      obtain ⟨c, rest, heq, hc⟩ := hm.exists_ne_minus
      exact absurd (List.cons.inj heq).1.symm hc
    | negative hm =>
      rw [hm.unsignedValue?_eq] at hn
      obtain ⟨hlt, hn⟩ := Option.ite_none_right_eq_some.mp hn
      cases hn
      omega
  field field := field.judges_ofText h
  statement {addressOf address _ _ _ _ _ field _} hm ha hb := by
    obtain ⟨f, hresolve, hf⟩ := Statement.exists_resolve_eq_map addressOf address hm ha hb
    rw [hresolve]
    refine (field.judges_ofText h).map fun w hw => ?_
    obtain ⟨rfl, hholds⟩ := (NumericField.ofText_eq_ok_iff h).mp hw
    obtain ⟨hfits, hconstant⟩ := hf w hholds
    exact ⟨hconstant, decode_encode hfits⟩

theorem Numeral.denotes_of_respellings {cs cs' : List Char} {v : Int}
    (h : Relation.ReflTransGen Respelled cs cs') (hv : Denotes cs v) : Denotes cs' v := by
  induction h with
  | refl => exact hv
  | tail _ hstep ih => exact hstep.denotes ih

theorem IsNumber.exists_denotes {cs : List Char} (h : IsNumber cs) :
    ∃ v, Numeral.Denotes cs v := by
  rcases h with h | h
  · exact Numeral.exists_denotes_of_matches h (.inl rfl)
  · exact Numeral.exists_denotes_of_matches h (.inr rfl)

/-- **Numbers mean their integer.**  Every number text of the language, of any length, is
taken for the one integer that it stands for wherever a number can stand.  However the
integer is spelled it is taken in the same way, and the operation is the same. -/
theorem numbers_mean_their_integer {text : String} (h : IsNumber text.toList) :
    ∃ v, Numeral.TakenFor text v ∧
      (∀ text' : String, Relation.ReflTransGen Numeral.Respelled text.toList text'.toList →
        Numeral.Denotes text'.toList v) ∧
      ∀ text' : String, Numeral.Denotes text'.toList v → Numeral.TakenFor text' v ∧
        ∀ {addressOf : String → Option Address} {address : Address} {a b : Register}
          {i j : Nat} {m : Mnemonic} {field : NumericField} {form : String → List Operand},
          m.TakesNumber a b field form → a.Denotes i → b.Denotes j → ∀ op,
          Statement.resolve addressOf address ⟨m.name, form text'⟩ = .ok op ↔
            Statement.resolve addressOf address ⟨m.name, form text⟩ = .ok op := by
  obtain ⟨v, hv⟩ := h.exists_denotes
  refine ⟨v, hv.takenFor, fun text' htext' => Numeral.denotes_of_respellings htext' hv, ?_⟩
  intro text' hv'
  refine ⟨hv'.takenFor, fun {addressOf address _ _ _ _ _ field _} hm ha hb op => ?_⟩
  obtain ⟨f, hresolve, -⟩ := Statement.exists_resolve_eq_map addressOf address hm ha hb
  simp only [hresolve, map_eq_ok, NumericField.ofText_eq_ok_iff hv,
    NumericField.ofText_eq_ok_iff hv']

theorem numbers_mean_their_integer_of_least_immediate :
    IsNumber "-0x0008000".toList ∧ Numeral.Denotes "-32768".toList (-32768) ∧
      ∀ text ∈ ["-0x0008000", "-32768"], ∃ op,
        Statement.resolve (fun _ => none) 0
          ⟨"addi", [.register (.numbered 8), .register (.numbered 0), .number text]⟩ = .ok op ∧
        op.constant? = some (-32768) ∧ decode op.instruction.encode = .ok op := by
  have hnumber : IsNumber "-0x0008000".toList :=
    .inr (show Terminal.hexadecimal.Matches (['-'] ++ '0' :: 'x' :: "0008000".toList) from
      .hexadecimal (.inr rfl) (.inl rfl) (by decide) (List.all_eq_true.mp (by decide)))
  have hdecimal : Numeral.Denotes "-32768".toList (-32768) :=
    .negative (.decimal ((Numeral.nat?_eq_some_iff (by decide)).mp (by decide)))
  obtain ⟨v, htaken, -, hspelled⟩ := numbers_mean_their_integer hnumber
  have hvalue : numberValue? "-0x0008000".toList = some (-32768) := by decide
  rw [htaken.value] at hvalue
  obtain ⟨-, hv⟩ := Option.ite_none_right_eq_some.mp hvalue
  cases hv
  refine ⟨hnumber, hdecimal, fun text htext => ?_⟩
  have hjudges : NumericField.immediate.Judges text (-32768) (Statement.resolve (fun _ => none) 0
      ⟨"addi", [.register (.numbered 8), .register (.numbered 0), .number text]⟩) fun op =>
        op.constant? = some (-32768) ∧ decode op.instruction.encode = .ok op := by
    rcases List.mem_pair.mp htext with rfl | rfl
    · exact htaken.statement .addi (.numbered (by decide)) (.numbered (by decide))
    · exact (hspelled _ hdecimal).1.statement .addi (.numbered (by decide))
        (.numbered (by decide))
  obtain ⟨op, hop⟩ := hjudges.accepted_iff.mpr ⟨by decide, by decide⟩
  exact ⟨op, hop, hjudges.shows op hop⟩

end Mips
