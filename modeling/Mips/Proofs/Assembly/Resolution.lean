import Mips.Proofs.Assembly.Denotation

/-!
# Whatever a statement denotes is found

Resolution makes its checks in an order of its own and stops at the first that fails.  A
statement that denotes an operation passes all of them: its registers exist, its numbers
stand for integers that the fields hold, and its labels have addresses.  So resolution
comes to its end and gives that operation (`Statement.resolve_of_denotes`), which is the
converse of `Statement.denotes_of_resolve`.
-/
namespace Mips

/-- The fields hold far less than what a number text can stand for. -/
theorem NumericField.natAbs_lt {field : NumericField} {v : Int} (hmin : field.min ≤ v)
    (hmax : v ≤ field.max) : v.natAbs < 2 ^ 63 := by
  cases field <;> simp only [NumericField.min, NumericField.max] at hmin hmax <;> omega

/-- A field gets the integer of any text that stands for one in its range. -/
theorem NumericField.ofText_of_denotes {field : NumericField} {text : String} {v : Int}
    (htext : Numeral.Denotes text.toList v) (hmin : field.min ≤ v) (hmax : v ≤ field.max) :
    field.ofText text = .ok v := by
  unfold ofText
  rw [htext.numberValue?_eq, if_pos (natAbs_lt hmin hmax)]
  exact check_eq_ok_iff.mpr ⟨rfl, hmin, hmax⟩

namespace Statement

/-- Every label has the address of its slot. -/
def Finds (addressOf : String → Option Address) (labels : String → Nat → Prop) : Prop :=
  ∀ name k, labels name k → k < 0x3FF00000 ∧ addressOf name = some (textAddress k)

variable {addressOf : String → Option Address} {labels : String → Nat → Prop} {slot : Nat}
  {a b c : Register} {text name : String} {i j k : Nat} {v : Int}

theorem threeRegisters_eq_ok (f : Nat → Nat → Nat → Operation) (ha : a.Denotes i)
    (hb : b.Denotes j) (hc : c.Denotes k) :
    threeRegisters f (.register a) (.register b) (.register c) = .ok (f i j k) :=
  bind_eq_ok.mpr ⟨j, Register.resolve_eq_ok_iff.mpr hb,
    bind_eq_ok.mpr ⟨k, Register.resolve_eq_ok_iff.mpr hc,
      bind_eq_ok.mpr ⟨i, Register.resolve_eq_ok_iff.mpr ha, rfl⟩⟩⟩

/-- With registers that exist, the number is the only operand that can be refused. -/
theorem shift_eq_map (f : Nat → Nat → Nat → Operation) (ha : a.Denotes i) (hb : b.Denotes j)
    (text : String) : shift f (.register a) (.register b) (.number text) =
      (NumericField.shiftAmount.ofText text).map fun w => f i j w.toNat := by
  simp only [shift, Operand.register?, Operand.number?, Register.resolve_eq_ok_iff.mpr ha,
    Register.resolve_eq_ok_iff.mpr hb]
  rfl

theorem immediate_eq_map (f : Nat → Nat → Int → Operation) (ha : a.Denotes i) (hb : b.Denotes j)
    (text : String) : immediate f (.register a) (.register b) (.number text) =
      (NumericField.immediate.ofText text).map (f i j) := by
  simp only [immediate, Operand.register?, Operand.number?, Register.resolve_eq_ok_iff.mpr ha,
    Register.resolve_eq_ok_iff.mpr hb]
  rfl

theorem displaced_eq_map (f : Nat → Nat → Int → Operation) (ha : a.Denotes i) (hb : b.Denotes j)
    (text : String) : displaced f (.register a) (.offset text b) =
      (NumericField.offset.ofText text).map (f i j) := by
  simp only [displaced, Operand.register?, Operand.offset?, Register.resolve_eq_ok_iff.mpr ha,
    Register.resolve_eq_ok_iff.mpr hb]
  cases NumericField.offset.ofText text <;> rfl

theorem shift_eq_ok (f : Nat → Nat → Nat → Operation) (ha : a.Denotes i) (hb : b.Denotes j)
    (htext : Numeral.Denotes text.toList k) (hk : k < 32) :
    shift f (.register a) (.register b) (.number text) = .ok (f i j k) := by
  have hamount : NumericField.shiftAmount.ofText text = .ok (k : Int) :=
    NumericField.ofText_of_denotes htext (Int.natCast_nonneg k) (by
      simp only [NumericField.max]
      omega)
  rw [shift_eq_map f ha hb, hamount]
  rfl

theorem immediate_eq_ok (f : Nat → Nat → Int → Operation) (ha : a.Denotes i) (hb : b.Denotes j)
    (htext : Numeral.Denotes text.toList v) (hv : FitsImmediate v) :
    immediate f (.register a) (.register b) (.number text) = .ok (f i j v) := by
  have hvalue : NumericField.immediate.ofText text = .ok v :=
    NumericField.ofText_of_denotes htext hv.1 (Int.le_of_lt_add_one hv.2)
  rw [immediate_eq_map f ha hb, hvalue]
  rfl

theorem displaced_eq_ok (f : Nat → Nat → Int → Operation) (ha : a.Denotes i) (hb : b.Denotes j)
    (htext : Numeral.Denotes text.toList v) (hv : FitsImmediate v) :
    displaced f (.register a) (.offset text b) = .ok (f i j v) := by
  have hvalue : NumericField.offset.ofText text = .ok v :=
    NumericField.ofText_of_denotes htext hv.1 (Int.le_of_lt_add_one hv.2)
  rw [displaced_eq_map f ha hb, hvalue]
  rfl

section
variable (hfinds : Finds addressOf labels)
include hfinds

theorem branch_eq_ok (f : Nat → Nat → Int → Operation) (hslot : slot < 0x3FF00000)
    (ha : a.Denotes i) (hb : b.Denotes j) (hname : labels name k)
    (hk : FitsImmediate ((k : Int) - (slot + 1))) :
    branch f addressOf (textAddress slot) (.register a) (.register b) (.label name) =
      .ok (f i j ((k : Int) - (slot + 1))) := by
  obtain ⟨hlt, haddress⟩ := hfinds name k hname
  have hdistance : NumericField.branchOffset.check
      (branchDistance (textAddress slot) (textAddress k)) = .ok ((k : Int) - (slot + 1)) := by
    rw [branchDistance_textAddress hslot hlt]
    exact NumericField.check_eq_ok_iff.mpr ⟨rfl, hk.1, Int.le_of_lt_add_one hk.2⟩
  exact bind_eq_ok.mpr ⟨_, Operand.label?_eq_ok_iff.mpr ⟨name, rfl, haddress⟩,
    bind_eq_ok.mpr ⟨_, hdistance,
      bind_eq_ok.mpr ⟨i, Register.resolve_eq_ok_iff.mpr ha,
        bind_eq_ok.mpr ⟨j, Register.resolve_eq_ok_iff.mpr hb, rfl⟩⟩⟩⟩

theorem jump_eq_ok (f : Nat → Operation) (hname : labels name k) :
    jump f addressOf (.label name) = .ok (f ((textBase.toNat / 4 + k) % 0x4000000)) := by
  obtain ⟨hlt, haddress⟩ := hfinds name k hname
  refine bind_eq_ok.mpr ⟨_, Operand.label?_eq_ok_iff.mpr ⟨name, rfl, haddress⟩, ?_⟩
  rw [regionIndex_textAddress hlt]
  rfl

/-- **Resolution finds whatever a statement denotes**, if it fits a word. -/
theorem resolve_of_denotes (hslot : slot < 0x3FF00000) {statement : Statement}
    {op : Operation} (hdenotes : statement.Denotes labels slot op) (hfits : op.Fits) :
    statement.resolve addressOf (textAddress slot) = .ok op := by
  obtain ⟨spelling, operands⟩ := statement
  obtain ⟨m, hm, h⟩ := hdenotes
  unfold resolve
  dsimp only at hm h ⊢
  rw [Mnemonic.ofName?_eq_some_iff.mpr (Mnemonic.isSpelled_iff.mp hm)]
  cases h with
  | threeRegisters hform ha hb hc =>
    cases hform <;> exact threeRegisters_eq_ok _ ha hb hc
  | shift hform ha hb hc =>
    cases hform <;> exact shift_eq_ok _ ha hb hc hfits.2.2
  | jr ha => exact map_eq_ok.mpr ⟨_, Register.resolve_eq_ok_iff.mpr ha, rfl⟩
  | addi ha hb hc => exact immediate_eq_ok _ ha hb hc hfits.2.2
  | displaced hform ha hb hc =>
    cases hform <;> exact displaced_eq_ok _ ha hb hc hfits.2.2
  | branch hform ha hb hc =>
    cases hform <;> exact branch_eq_ok hfinds _ hslot ha hb hc hfits.2.2
  | jump hform ha =>
    cases hform <;> exact jump_eq_ok hfinds _ ha

end

end Statement
end Mips
