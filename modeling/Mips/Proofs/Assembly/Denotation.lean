import Mips.Proofs.Instruction.Encoding
import Mips.Proofs.Source.Reading

/-!
# What statements denote

`Statement.Denotes` says which operation a statement in a given slot of a program
denotes, form by form and without the steps that resolution takes: a register stands
for its number, a number text for its integer, a branch for the distance between two
slots and a jump for the place of a slot in its region.  A statement denotes at most
one operation (`Statement.Denotes.unique`), and resolution finds it together with the
fact that all its fields fit a word (`Statement.denotes_of_resolve`).
-/
namespace Mips

/-- The machine register that a written register stands for. -/
inductive Register.Denotes : Register → Nat → Prop
  | numbered {n : Nat} (h : n < count) : Denotes (.numbered n) n
  | named {name : String} {n : Nat} (h : names[n]? = some name) : Denotes (.named name) n

namespace Mnemonic

/-! ## Forms

How the operands of an instruction are written, and what operation they give. -/

/-- The instructions written `rd, rs, rt`. -/
inductive ThreeRegisters : Mnemonic → (Nat → Nat → Nat → Operation) → Prop
  | add : ThreeRegisters (.r .add) .add
  | sub : ThreeRegisters (.r .sub) .sub
  | and : ThreeRegisters (.r .and) .and
  | or : ThreeRegisters (.r .or) .or
  | slt : ThreeRegisters (.r .slt) .slt

/-- The instructions written `rd, rt, shift`. -/
inductive Shift : Mnemonic → (Nat → Nat → Nat → Operation) → Prop
  | sll : Shift (.r .sll) .sll
  | srl : Shift (.r .srl) .srl

/-- The instructions written `rt, offset(rs)`. -/
inductive Displaced : Mnemonic → (Nat → Nat → Int → Operation) → Prop
  | lw : Displaced (.i .lw) .lw
  | sw : Displaced (.i .sw) .sw

/-- The instructions written `rs, rt, label`. -/
inductive Branch : Mnemonic → (Nat → Nat → Int → Operation) → Prop
  | beq : Branch (.i .beq) .beq
  | bne : Branch (.i .bne) .bne

/-- The instructions written `label`. -/
inductive Jump : Mnemonic → (Nat → Operation) → Prop
  | j : Jump (.j .j) .j
  | jal : Jump (.j .jal) .jal

/-- The operation that a mnemonic denotes with its operands in slot `slot`, where
`labels` says in front of which slots the labels stand. -/
inductive Denotes (labels : String → Nat → Prop) (slot : Nat) :
    Mnemonic → List Operand → Operation → Prop
  | threeRegisters {m : Mnemonic} {f : Nat → Nat → Nat → Operation} {a b c : Register}
      {rd rs rt : Nat} (hm : ThreeRegisters m f) (ha : a.Denotes rd) (hb : b.Denotes rs)
      (hc : c.Denotes rt) :
      Denotes labels slot m [.register a, .register b, .register c] (f rd rs rt)
  | shift {m : Mnemonic} {f : Nat → Nat → Nat → Operation} {a b : Register} {text : String}
      {rd rt amount : Nat} (hm : Shift m f) (ha : a.Denotes rd) (hb : b.Denotes rt)
      (hc : Numeral.Denotes text.toList amount) :
      Denotes labels slot m [.register a, .register b, .number text] (f rd rt amount)
  | jr {a : Register} {rs : Nat} (ha : a.Denotes rs) :
      Denotes labels slot (.r .jr) [.register a] (.jr rs)
  | addi {a b : Register} {text : String} {rt rs : Nat} {value : Int} (ha : a.Denotes rt)
      (hb : b.Denotes rs) (hc : Numeral.Denotes text.toList value) :
      Denotes labels slot (.i .addi) [.register a, .register b, .number text]
        (.addi rt rs value)
  | displaced {m : Mnemonic} {f : Nat → Nat → Int → Operation} {a b : Register}
      {text : String} {rt rs : Nat} {offset : Int} (hm : Displaced m f) (ha : a.Denotes rt)
      (hb : b.Denotes rs) (hc : Numeral.Denotes text.toList offset) :
      Denotes labels slot m [.register a, .offset text b] (f rt rs offset)
  | branch {m : Mnemonic} {f : Nat → Nat → Int → Operation} {a b : Register}
      {name : String} {rs rt k : Nat} (hm : Branch m f) (ha : a.Denotes rs)
      (hb : b.Denotes rt) (hc : labels name k) :
      Denotes labels slot m [.register a, .register b, .label name]
        (f rs rt ((k : Int) - (slot + 1)))
  | jump {m : Mnemonic} {f : Nat → Operation} {name : String} {k : Nat} (hm : Jump m f)
      (ha : labels name k) :
      Denotes labels slot m [.label name] (f ((textBase.toNat / 4 + k) % 0x4000000))

end Mnemonic

/-- How a mnemonic is spelled in source text. -/
inductive Mnemonic.IsSpelled : Mnemonic → String → Prop
  | add : IsSpelled (.r .add) "add"
  | sub : IsSpelled (.r .sub) "sub"
  | and : IsSpelled (.r .and) "and"
  | or : IsSpelled (.r .or) "or"
  | slt : IsSpelled (.r .slt) "slt"
  | sll : IsSpelled (.r .sll) "sll"
  | srl : IsSpelled (.r .srl) "srl"
  | jr : IsSpelled (.r .jr) "jr"
  | addi : IsSpelled (.i .addi) "addi"
  | lw : IsSpelled (.i .lw) "lw"
  | sw : IsSpelled (.i .sw) "sw"
  | beq : IsSpelled (.i .beq) "beq"
  | bne : IsSpelled (.i .bne) "bne"
  | j : IsSpelled (.j .j) "j"
  | jal : IsSpelled (.j .jal) "jal"

/-- The operation that a statement denotes in slot `slot`: that of its mnemonic. -/
def Statement.Denotes (labels : String → Nat → Prop) (slot : Nat) (statement : Statement)
    (operation : Operation) : Prop :=
  ∃ m : Mnemonic, m.IsSpelled statement.mnemonic ∧
    m.Denotes labels slot statement.operands operation

/-! ## Registers -/

theorem Register.index?_eq_some_iff {register : Register} {n : Nat} :
    register.index? = some n ↔ register.Denotes n := by
  cases register with
  | numbered number =>
    simp only [index?, Option.ite_none_right_eq_some, Option.some.injEq]
    constructor
    · rintro ⟨h, rfl⟩
      exact .numbered h
    · rintro ⟨h⟩
      exact ⟨h, rfl⟩
  | named name =>
    show numberOfName? name = some n ↔ _
    rw [numberOfName?_eq_some_iff]
    constructor
    · exact .named
    · rintro (_ | h)
      exact h

theorem Register.Denotes.unique {register : Register} {m n : Nat} (hm : register.Denotes m)
    (hn : register.Denotes n) : m = n :=
  Option.some.inj ((index?_eq_some_iff.mpr hm).symm.trans (index?_eq_some_iff.mpr hn))

theorem Register.Denotes.lt {register : Register} {n : Nat} (h : register.Denotes n) :
    n < 32 := by
  cases h with
  | numbered h => exact h
  | named h => exact (List.getElem?_eq_some_iff.mp h).1

/-! ## One operation for every statement -/

namespace Mnemonic

/-- The table of names has the spellings. -/
theorem isSpelled_iff {m : Mnemonic} {spelling : String} :
    m.IsSpelled spelling ↔ m.name = spelling := by
  constructor
  · intro h
    cases h <;> rfl
  · rintro rfl
    rcases m with function | opCode | opCode
    · cases function <;> constructor
    · cases opCode <;> constructor
    · cases opCode <;> constructor

/-- A spelling is that of one mnemonic. -/
theorem IsSpelled.unique {m m' : Mnemonic} {spelling : String} (h : m.IsSpelled spelling)
    (h' : m'.IsSpelled spelling) : m = m' :=
  eq_of_name_eq ((isSpelled_iff.mp h).trans (isSpelled_iff.mp h').symm)

theorem ThreeRegisters.unique {m : Mnemonic} {f g : Nat → Nat → Nat → Operation}
    (hf : ThreeRegisters m f) (hg : ThreeRegisters m g) : f = g := by
  cases hf <;> cases hg <;> rfl

theorem Shift.unique {m : Mnemonic} {f g : Nat → Nat → Nat → Operation} (hf : Shift m f)
    (hg : Shift m g) : f = g := by
  cases hf <;> cases hg <;> rfl

theorem Displaced.unique {m : Mnemonic} {f g : Nat → Nat → Int → Operation}
    (hf : Displaced m f) (hg : Displaced m g) : f = g := by
  cases hf <;> cases hg <;> rfl

theorem Branch.unique {m : Mnemonic} {f g : Nat → Nat → Int → Operation} (hf : Branch m f)
    (hg : Branch m g) : f = g := by
  cases hf <;> cases hg <;> rfl

theorem Jump.unique {m : Mnemonic} {f g : Nat → Operation} (hf : Jump m f) (hg : Jump m g) :
    f = g := by
  cases hf <;> cases hg <;> rfl

variable {labels : String → Nat → Prop} {slot : Nat}

/-- A mnemonic denotes one operation with its operands, if no label stands in two
places. -/
theorem Denotes.unique (hlabels : ∀ name k k', labels name k → labels name k' → k = k')
    {m : Mnemonic} {operands : List Operand} {op op' : Operation}
    (h : m.Denotes labels slot operands op) (h' : m.Denotes labels slot operands op') :
    op = op' := by
  cases h with
  | threeRegisters hm ha hb hc =>
    cases h' with
    | threeRegisters hm' ha' hb' hc' =>
      rw [hm.unique hm', ha.unique ha', hb.unique hb', hc.unique hc']
  | shift hm ha hb hc =>
    cases h' with
    | shift hm' ha' hb' hc' =>
      rw [hm.unique hm', ha.unique ha', hb.unique hb', Int.ofNat.inj (hc.unique hc')]
    -- written with the same operands, and told apart by the mnemonic
    | addi => cases hm
  | jr ha =>
    cases h' with
    | jr ha' => rw [ha.unique ha']
  | addi ha hb hc =>
    cases h' with
    | shift hm' => cases hm'
    | addi ha' hb' hc' => rw [ha.unique ha', hb.unique hb', hc.unique hc']
  | displaced hm ha hb hc =>
    cases h' with
    | displaced hm' ha' hb' hc' =>
      rw [hm.unique hm', ha.unique ha', hb.unique hb', hc.unique hc']
  | branch hm ha hb hc =>
    cases h' with
    | branch hm' ha' hb' hc' =>
      rw [hm.unique hm', ha.unique ha', hb.unique hb', hlabels _ _ _ hc hc']
  | jump hm ha =>
    cases h' with
    | jump hm' ha' => rw [hm.unique hm', hlabels _ _ _ ha ha']

end Mnemonic

/-- **A statement denotes one operation**, if no label stands in two places. -/
theorem Statement.Denotes.unique {labels : String → Nat → Prop}
    (hlabels : ∀ name k k', labels name k → labels name k' → k = k') {slot : Nat}
    {statement : Statement} {op op' : Operation} (h : statement.Denotes labels slot op)
    (h' : statement.Denotes labels slot op') : op = op' := by
  obtain ⟨m, hm, h⟩ := h
  obtain ⟨m', hm', h'⟩ := h'
  cases hm.unique hm'
  exact h.unique hlabels h'

/-- Only a load or store denotes an access to data. -/
theorem Statement.Denotes.mnemonic_of_accessesData {labels : String → Nat → Prop} {slot : Nat}
    {statement : Statement} {op : Operation} (h : statement.Denotes labels slot op)
    (hop : op.AccessesData) : statement.mnemonic = "lw" ∨ statement.mnemonic = "sw" := by
  obtain ⟨spelling, operands⟩ := statement
  obtain ⟨m, hm, h⟩ := h
  dsimp only at h
  cases h with
  | displaced hform =>
    cases hform with
    | lw => exact .inl (Mnemonic.isSpelled_iff.mp hm).symm
    | sw => exact .inr (Mnemonic.isSpelled_iff.mp hm).symm
  | threeRegisters hform | shift hform | branch hform | jump hform =>
    cases hform <;> exact hop.elim
  | jr | addi => exact hop.elim

/-- Only `jr` denotes a jump to the address in a register. -/
theorem Statement.Denotes.mnemonic_of_jr {labels : String → Nat → Prop} {slot : Nat}
    {statement : Statement} {rs : Nat} (h : statement.Denotes labels slot (.jr rs)) :
    statement.mnemonic = "jr" := by
  obtain ⟨spelling, operands⟩ := statement
  obtain ⟨m, hm, h⟩ := h
  dsimp only at h
  generalize hop : Operation.jr rs = op at h
  cases h with
  | jr => exact (Mnemonic.isSpelled_iff.mp hm).symm
  | threeRegisters hform | shift hform | displaced hform | branch hform | jump hform =>
    cases hform <;> cases hop
  | addi => cases hop

/-! ## Operands and fields -/

theorem Register.resolve_eq_ok_iff {register : Register} {n : Nat} :
    register.resolve = .ok n ↔ register.Denotes n := by
  rw [← index?_eq_some_iff]
  unfold resolve
  cases register.index? <;> simp

theorem NumericField.check_eq_ok_iff {field : NumericField} {value v : Int} :
    field.check value = .ok v ↔ v = value ∧ field.min ≤ value ∧ value ≤ field.max := by
  unfold check
  split <;> simp only [reduceCtorEq, Except.ok.injEq, false_iff] <;> omega

/-- A field gets the integer that the text stands for. -/
theorem NumericField.denotes_of_ofText {field : NumericField} {text : String} {v : Int}
    (htext : ∃ value, Numeral.Denotes text.toList value) (h : field.ofText text = .ok v) :
    Numeral.Denotes text.toList v ∧ field.min ≤ v ∧ v ≤ field.max := by
  obtain ⟨value, hvalue⟩ := htext
  unfold ofText at h
  rw [hvalue.numberValue?_eq] at h
  split at h
  · next w hw =>
    obtain ⟨rfl, hrange⟩ := check_eq_ok_iff.mp h
    cases (Option.ite_none_right_eq_some.mp hw).2
    exact ⟨hvalue, hrange⟩
  · cases h

namespace Operand

variable {operand : Operand} {position : Nat}

theorem register?_eq_ok_iff {n : Nat} :
    operand.register? position = .ok n ↔ ∃ r, operand = .register r ∧ r.Denotes n := by
  cases operand <;> simp [register?, Register.resolve_eq_ok_iff]

theorem denotes_of_number? {field : NumericField} {v : Int} (hoperand : operand.Lexical)
    (h : operand.number? position field = .ok v) :
    ∃ text, operand = .number text ∧ Numeral.Denotes text.toList v ∧ field.min ≤ v ∧
      v ≤ field.max := by
  cases operand with
  | number text => exact ⟨text, rfl, NumericField.denotes_of_ofText hoperand h⟩
  | _ => cases h

theorem denotes_of_offset? {v : Int} {n : Nat} (hoperand : operand.Lexical)
    (h : operand.offset? position = .ok (v, n)) :
    ∃ text base, operand = .offset text base ∧ Numeral.Denotes text.toList v ∧
      FitsImmediate v ∧ base.Denotes n := by
  cases operand with
  | offset text base =>
    obtain ⟨value, hvalue, h⟩ := bind_eq_ok.mp h
    obtain ⟨m, hm, h⟩ := bind_eq_ok.mp h
    cases h
    obtain ⟨hdenotes, hmin, hmax⟩ := NumericField.denotes_of_ofText hoperand hvalue
    exact ⟨text, base, rfl, hdenotes, ⟨hmin, Int.lt_of_le_of_lt hmax (by decide)⟩,
      Register.resolve_eq_ok_iff.mp hm⟩
  | _ => cases h

theorem label?_eq_ok_iff {addressOf : String → Option Address} {address : Address} :
    operand.label? position addressOf = .ok address ↔
      ∃ name, operand = .label name ∧ addressOf name = some address := by
  cases operand with
  | label name =>
    simp only [label?, label.injEq, exists_eq_left']
    split <;> simp [*]
  | _ => simp [label?]

end Operand

/-! ## Slots and their addresses -/

theorem branchDistance_textAddress {slot k : Nat} (hslot : slot < 0x3FF00000)
    (hk : k < 0x3FF00000) :
    branchDistance (textAddress slot) (textAddress k) = (k : Int) - (slot + 1) := by
  unfold branchDistance
  rw [toNat_textAddress hslot, toNat_textAddress hk]
  have hdistance : ((0x400000 + 4 * k : Nat) : Int) - (((0x400000 + 4 * slot : Nat) : Int) + 4) =
      ((k : Int) - (slot + 1)) * 4 := by omega
  rw [hdistance, Int.mul_tdiv_cancel _ (by decide)]

theorem regionIndex_textAddress {k : Nat} (hk : k < 0x3FF00000) :
    regionIndex (textAddress k) = (textBase.toNat / 4 + k) % 0x4000000 := by
  have hbase : textBase.toNat = 0x400000 := rfl
  unfold regionIndex
  rw [toNat_textAddress hk, hbase]
  omega

/-! ## Resolution -/

namespace Statement

/-- What a table of label addresses has to do with the slots of the labels. -/
def Places (addressOf : String → Option Address) (labels : String → Nat → Prop) : Prop :=
  ∀ name address, addressOf name = some address →
    ∃ k, labels name k ∧ k < 0x3FF00000 ∧ address = textAddress k

variable {addressOf : String → Option Address} {labels : String → Nat → Prop} {slot : Nat}
  {m : Mnemonic} {a b c : Operand} {op : Operation}

theorem denotes_of_threeRegisters {f : Nat → Nat → Nat → Operation}
    (hm : m.ThreeRegisters f) (h : threeRegisters f a b c = .ok op) :
    m.Denotes labels slot [a, b, c] op ∧ op.Fits := by
  obtain ⟨rs, hrs, h⟩ := bind_eq_ok.mp h
  obtain ⟨rt, hrt, h⟩ := bind_eq_ok.mp h
  obtain ⟨rd, hrd, h⟩ := bind_eq_ok.mp h
  cases h
  obtain ⟨a, rfl, ha⟩ := Operand.register?_eq_ok_iff.mp hrd
  obtain ⟨b, rfl, hb⟩ := Operand.register?_eq_ok_iff.mp hrs
  obtain ⟨c, rfl, hc⟩ := Operand.register?_eq_ok_iff.mp hrt
  refine ⟨.threeRegisters hm ha hb hc, ?_⟩
  cases hm <;> exact ⟨ha.lt, hb.lt, hc.lt⟩

theorem denotes_of_shift {f : Nat → Nat → Nat → Operation} (hm : m.Shift f)
    (hc : c.Lexical) (h : shift f a b c = .ok op) :
    m.Denotes labels slot [a, b, c] op ∧ op.Fits := by
  obtain ⟨rt, hrt, h⟩ := bind_eq_ok.mp h
  obtain ⟨rd, hrd, h⟩ := bind_eq_ok.mp h
  obtain ⟨amount, hamount, h⟩ := bind_eq_ok.mp h
  cases h
  obtain ⟨a, rfl, ha⟩ := Operand.register?_eq_ok_iff.mp hrd
  obtain ⟨b, rfl, hb⟩ := Operand.register?_eq_ok_iff.mp hrt
  obtain ⟨text, rfl, htext, hmin, hmax⟩ := Operand.denotes_of_number? hc hamount
  obtain ⟨n, rfl⟩ := Int.eq_ofNat_of_zero_le hmin
  have hn : n < 32 := Nat.lt_succ_of_le (Int.ofNat_le.mp hmax)
  refine ⟨.shift hm ha hb htext, ?_⟩
  cases hm <;> exact ⟨ha.lt, hb.lt, hn⟩

theorem denotes_of_immediate (hc : c.Lexical) (h : immediate .addi a b c = .ok op) :
    Mnemonic.Denotes labels slot (.i .addi) [a, b, c] op ∧ op.Fits := by
  obtain ⟨rs, hrs, h⟩ := bind_eq_ok.mp h
  obtain ⟨rt, hrt, h⟩ := bind_eq_ok.mp h
  obtain ⟨value, hvalue, h⟩ := bind_eq_ok.mp h
  cases h
  obtain ⟨a, rfl, ha⟩ := Operand.register?_eq_ok_iff.mp hrt
  obtain ⟨b, rfl, hb⟩ := Operand.register?_eq_ok_iff.mp hrs
  obtain ⟨text, rfl, htext, hmin, hmax⟩ := Operand.denotes_of_number? hc hvalue
  exact ⟨.addi ha hb htext, hb.lt, ha.lt, hmin, Int.lt_of_le_of_lt hmax (by decide)⟩

theorem denotes_of_displaced {f : Nat → Nat → Int → Operation} (hm : m.Displaced f)
    (hb : b.Lexical) (h : displaced f a b = .ok op) :
    m.Denotes labels slot [a, b] op ∧ op.Fits := by
  obtain ⟨⟨offset, rs⟩, hoffset, h⟩ := bind_eq_ok.mp h
  obtain ⟨rt, hrt, h⟩ := bind_eq_ok.mp h
  cases h
  obtain ⟨a, rfl, ha⟩ := Operand.register?_eq_ok_iff.mp hrt
  obtain ⟨text, base, rfl, htext, hfits, hbase⟩ := Operand.denotes_of_offset? hb hoffset
  refine ⟨.displaced hm ha hbase htext, ?_⟩
  cases hm <;> exact ⟨hbase.lt, ha.lt, hfits⟩

theorem denotes_of_branch {f : Nat → Nat → Int → Operation} (hm : m.Branch f)
    (hplaces : Places addressOf labels) (hslot : slot < 0x3FF00000)
    (h : branch f addressOf (textAddress slot) a b c = .ok op) :
    m.Denotes labels slot [a, b, c] op ∧ op.Fits := by
  obtain ⟨target, htarget, h⟩ := bind_eq_ok.mp h
  obtain ⟨offset, hoffset, h⟩ := bind_eq_ok.mp h
  obtain ⟨rs, hrs, h⟩ := bind_eq_ok.mp h
  obtain ⟨rt, hrt, h⟩ := bind_eq_ok.mp h
  cases h
  obtain ⟨a, rfl, ha⟩ := Operand.register?_eq_ok_iff.mp hrs
  obtain ⟨b, rfl, hb⟩ := Operand.register?_eq_ok_iff.mp hrt
  obtain ⟨name, rfl, hname⟩ := Operand.label?_eq_ok_iff.mp htarget
  obtain ⟨k, hlabel, hk, rfl⟩ := hplaces name target hname
  obtain ⟨rfl, hmin, hmax⟩ := NumericField.check_eq_ok_iff.mp hoffset
  rw [branchDistance_textAddress hslot hk] at hmin hmax ⊢
  refine ⟨.branch hm ha hb hlabel, ?_⟩
  cases hm <;> exact ⟨ha.lt, hb.lt, hmin, Int.lt_of_le_of_lt hmax (by decide)⟩

theorem denotes_of_jump {f : Nat → Operation} (hm : m.Jump f)
    (hplaces : Places addressOf labels) (h : jump f addressOf a = .ok op) :
    m.Denotes labels slot [a] op ∧ op.Fits := by
  obtain ⟨target, htarget, h⟩ := bind_eq_ok.mp h
  cases h
  obtain ⟨name, rfl, hname⟩ := Operand.label?_eq_ok_iff.mp htarget
  obtain ⟨k, hlabel, hk, rfl⟩ := hplaces name target hname
  rw [regionIndex_textAddress hk]
  refine ⟨.jump hm hlabel, ?_⟩
  cases hm <;> exact Nat.mod_lt _ (by decide)

/-- **Resolution finds what a statement denotes**, and every field of that fits a
word. -/
theorem denotes_of_resolve {statement : Statement}
    (hoperands : ∀ operand ∈ statement.operands, operand.Lexical)
    (hplaces : Places addressOf labels) (hslot : slot < 0x3FF00000)
    (h : statement.resolve addressOf (textAddress slot) = .ok op) :
    statement.Denotes labels slot op ∧ op.Fits := by
  obtain ⟨spelling, operands⟩ := statement
  unfold resolve at h
  split at h
  · cases h
  next m hname =>
    have key : m.Denotes labels slot operands op ∧ op.Fits := by
      dsimp only at h
      split at h
      · exact denotes_of_threeRegisters .add h
      · exact denotes_of_threeRegisters .sub h
      · exact denotes_of_threeRegisters .and h
      · exact denotes_of_threeRegisters .or h
      · exact denotes_of_threeRegisters .slt h
      · exact denotes_of_shift .sll (hoperands _ (by simp)) h
      · exact denotes_of_shift .srl (hoperands _ (by simp)) h
      · obtain ⟨rs, hrs, rfl⟩ := map_eq_ok.mp h
        obtain ⟨a, rfl, ha⟩ := Operand.register?_eq_ok_iff.mp hrs
        exact ⟨.jr ha, ha.lt⟩
      · exact denotes_of_immediate (hoperands _ (by simp)) h
      · exact denotes_of_displaced .lw (hoperands _ (by simp)) h
      · exact denotes_of_displaced .sw (hoperands _ (by simp)) h
      · exact denotes_of_branch .beq hplaces hslot h
      · exact denotes_of_branch .bne hplaces hslot h
      · exact denotes_of_jump .j hplaces h
      · exact denotes_of_jump .jal hplaces h
      · cases h
    have hspelled : m.IsSpelled spelling :=
      Mnemonic.isSpelled_iff.mpr (Mnemonic.ofName?_eq_some_iff.mp hname)
    exact ⟨⟨m, hspelled, key.1⟩, key.2⟩

end Statement
end Mips
