import Mips.Proofs.Assembly.Literals
import Mips.Proofs.Instruction.RoundTrip

/-!
# Well-typed statements

Every instruction has parameters, and each asks for an operand of one kind whose register,
number or label is one that it can use (`Parameter.Accepts`).  A statement is well typed if
its instruction exists and its operands are accepted one by one, in whatever order
resolution looks at them.

Resolution gives an operation exactly to the well-typed statements.  That is the operation
which the mnemonic gives with its operands (`Statement.Gives`), its fields are never too
wide, and a branch goes to its label.  To the others it gives a fault that the statement has
(`Statement.Violates`).  `Statement.resolution_is_typing` is the result for all statements,
label tables and addresses, also for addresses outside of the text segment.
-/
namespace Mips

/-! ## Parameters -/

/-- The register in an operand.  An offset has one, too, its base. -/
def Operand.registerIn? : Operand → Option Register
  | register r | offset _ r => some r
  | number _ | label _ => none

/-- The number text in an operand. -/
def Operand.numberIn? : Operand → Option String
  | number text | offset text _ => some text
  | register _ | label _ => none

/-- The label in an operand. -/
def Operand.labelIn? : Operand → Option String
  | label name => some name
  | register _ | number _ | offset _ _ => none

/-- What an instruction wants at a place among its operands. -/
inductive Parameter where
  | register
  /-- A number for one of the fields. -/
  | number (field : NumericField)
  /-- An offset with its base register. -/
  | offset
  /-- A label anywhere. -/
  | label
  /-- A label within the reach of a branch. -/
  | target
deriving DecidableEq

/-- The parameters of an instruction in the order of its operands. -/
def Mnemonic.parameters : Mnemonic → List Parameter
  | .r .jr => [.register]
  | .r .sll | .r .srl => [.register, .register, .number .shiftAmount]
  | .r _ => [.register, .register, .register]
  | .i .addi => [.register, .register, .number .immediate]
  | .i .lw | .i .sw => [.register, .offset]
  | .i .beq | .i .bne => [.register, .register, .target]
  | .j _ => [.label]

theorem Mnemonic.length_parameters (m : Mnemonic) : m.parameters.length = m.arity := by
  rcases m with function | opCode | opCode
  · cases function <;> rfl
  · cases opCode <;> rfl
  · rfl

/-- The text that a written register is shown by. -/
inductive Register.IsShownAs : Register → String → Prop
  | numbered (n : Nat) : IsShownAs (.numbered n) ("$" ++ toString n)
  | named (name : String) : IsShownAs (.named name) ("$" ++ name)

theorem Register.isShownAs_text (r : Register) : r.IsShownAs r.text := by
  cases r with
  | numbered n => exact .numbered n
  | named name => exact .named name

/-- A branch at `address` can be taken to `target`. -/
def Reaches (address target : Address) : Prop :=
  NumericField.branchOffset.Holds (((target.toNat : Int) - (address.toNat + 4)).tdiv 4)

namespace Parameter

/-- The kind of operand that a parameter wants. -/
def kind : Parameter → OperandKind
  | register => .register
  | number _ => .number
  | offset => .offset
  | label | target => .label

/-- The field that gets the number of the operand. -/
def field? : Parameter → Option NumericField
  | number field => some field
  | offset => some .offset
  | register | label | target => none

/-- The operand is one that the parameter can use. -/
structure Accepts (addressOf : String → Option Address) (address : Address)
    (parameter : Parameter) (operand : Operand) : Prop where
  kind : operand.kind = parameter.kind
  register : ∀ r ∈ operand.registerIn?, ∃ n, r.Denotes n
  number : ∀ field ∈ parameter.field?, ∀ text ∈ operand.numberIn?,
    ∃ v, Numeral.Denotes text.toList v ∧ field.Holds v
  label : ∀ name ∈ operand.labelIn?,
    ∃ target, addressOf name = some target ∧ (parameter = .target → Reaches address target)

/-- What is wrong with the operand at a position, counted from one, if the parameter cannot
use it. -/
inductive Refuses (addressOf : String → Option Address) (address : Address)
    (parameter : Parameter) (position : Nat) (operand : Operand) : ResolutionError → Prop
  | kind (h : operand.kind ≠ parameter.kind) :
      Refuses addressOf address parameter position operand
        (.invalidOperand position parameter.kind operand.kind)
  | register {r : Register} {text : String} (hr : r ∈ operand.registerIn?)
      (htext : r.IsShownAs text) (h : ¬ ∃ n, r.Denotes n) :
      Refuses addressOf address parameter position operand (.unknownRegister text)
  | invalidNumber {field : NumericField} {text : String} {v : Int}
      (hfield : field ∈ parameter.field?) (htext : text ∈ operand.numberIn?)
      (hv : Numeral.Denotes text.toList v) (h : 2 ^ 63 ≤ v.natAbs) :
      Refuses addressOf address parameter position operand (.invalidNumber text)
  | outOfRange {field : NumericField} {text : String} {v : Int}
      (hfield : field ∈ parameter.field?) (htext : text ∈ operand.numberIn?)
      (hv : Numeral.Denotes text.toList v) (h : ¬ field.Holds v) :
      Refuses addressOf address parameter position operand (.outOfRange field v)
  | undefinedLabel {name : String} (hname : name ∈ operand.labelIn?) (h : addressOf name = none) :
      Refuses addressOf address parameter position operand (.undefinedLabel name)
  | tooFar {name : String} {target : Address} (hparameter : parameter = .target)
      (hname : name ∈ operand.labelIn?) (htarget : addressOf name = some target)
      (h : ¬ Reaches address target) :
      Refuses addressOf address parameter position operand
        (.outOfRange .branchOffset (((target.toNat : Int) - (address.toNat + 4)).tdiv 4))

/-- One of the operands is refused by its parameter. -/
def AnyRefuses (addressOf : String → Option Address) (address : Address)
    (parameters : List Parameter) (operands : List Operand) (error : ResolutionError) : Prop :=
  ∃ (i : Nat) (parameter : Parameter) (operand : Operand), parameters[i]? = some parameter ∧
    operands[i]? = some operand ∧ parameter.Refuses addressOf address (i + 1) operand error

end Parameter

namespace Statement

/-- The instruction exists, and each of its parameters accepts its operand. -/
def WellTyped (addressOf : String → Option Address) (address : Address)
    (statement : Statement) : Prop :=
  ∃ m : Mnemonic, m.IsSpelled statement.mnemonic ∧
    List.Forall₂ (Parameter.Accepts addressOf address) m.parameters statement.operands

/-- A fault that the statement has. -/
inductive Violates (addressOf : String → Option Address) (address : Address)
    (statement : Statement) : ResolutionError → Prop
  | unknownInstruction (h : ∀ m : Mnemonic, ¬ m.IsSpelled statement.mnemonic) :
      Violates addressOf address statement (.unknownInstruction statement.mnemonic)
  | operandCount {m : Mnemonic} (hm : m.IsSpelled statement.mnemonic)
      (h : statement.operands.length ≠ m.parameters.length) :
      Violates addressOf address statement
        (.operandCount statement.mnemonic m.parameters.length statement.operands.length)
  | operand {m : Mnemonic} {error : ResolutionError} (hm : m.IsSpelled statement.mnemonic)
      (hcount : statement.operands.length = m.parameters.length)
      (h : Parameter.AnyRefuses addressOf address m.parameters statement.operands error) :
      Violates addressOf address statement error

end Statement

/-- The operation that an instruction at `address` gives with its operands.  Without a label
it is the one that is denoted in every place. -/
inductive Mnemonic.Gives (addressOf : String → Option Address) (address : Address)
    (m : Mnemonic) : List Operand → Operation → Prop
  | placeless {operands : List Operand} {op : Operation}
      (h : ∀ labels slot, m.Denotes labels slot operands op) : Gives addressOf address m operands op
  | branch {f : Nat → Nat → Int → Operation} {a b : Register} {name : String} {rs rt : Nat}
      {target : Address} (hm : m.Branch f) (ha : a.Denotes rs) (hb : b.Denotes rt)
      (hc : addressOf name = some target) :
      Gives addressOf address m [.register a, .register b, .label name]
        (f rs rt (((target.toNat : Int) - (address.toNat + 4)).tdiv 4))
  | jump {f : Nat → Operation} {name : String} {target : Address} (hm : m.Jump f)
      (ha : addressOf name = some target) :
      Gives addressOf address m [.label name] (f (target.toNat / 4 % 0x4000000))

namespace Statement

/-- The operation that a statement at `address` gives: that of its mnemonic. -/
def Gives (addressOf : String → Option Address) (address : Address) (statement : Statement)
    (op : Operation) : Prop :=
  ∃ m : Mnemonic, m.IsSpelled statement.mnemonic ∧
    m.Gives addressOf address statement.operands op

/-- If the statement is a branch, so is the instruction, and it goes to the label of the
statement, if that is as far from a word boundary as the branch. -/
def Lands (addressOf : String → Option Address) (address : Address) (statement : Statement)
    (instruction : Instruction) : Prop :=
  ∀ opCode, (opCode = .beq ∧ statement.mnemonic = "beq") ∨
      (opCode = .bne ∧ statement.mnemonic = "bne") →
    ∃ rs rt immediate name target, instruction = .i opCode rs rt immediate ∧
      statement.operands[2]? = some (.label name) ∧ addressOf name = some target ∧
      (target.toNat % 4 = address.toNat % 4 →
        (target.toNat : Int) = address.toNat + 4 + 4 * immediate.toInt)

end Statement

variable {addressOf : String → Option Address} {address : Address}

/-! ## Faults and types exclude each other -/

theorem Parameter.Refuses.not_accepts {parameter : Parameter} {position : Nat} {operand : Operand}
    {error : ResolutionError} (h : parameter.Refuses addressOf address position operand error) :
    ¬ parameter.Accepts addressOf address operand := by
  intro haccepts
  cases h with
  | kind h => exact h haccepts.kind
  | register hr _ h => exact h (haccepts.register _ hr)
  | invalidNumber hfield htext hv h =>
    obtain ⟨w, hw, hholds⟩ := haccepts.number _ hfield _ htext
    cases hw.unique hv
    obtain ⟨hmin, hmax⟩ := NumericField.holds_iff.mp hholds
    exact Nat.not_lt.mpr h (NumericField.natAbs_lt hmin hmax)
  | outOfRange hfield htext hv h =>
    obtain ⟨w, hw, hholds⟩ := haccepts.number _ hfield _ htext
    cases hw.unique hv
    exact h hholds
  | undefinedLabel hname h =>
    obtain ⟨target, htarget, -⟩ := haccepts.label _ hname
    rw [h] at htarget
    cases htarget
  | tooFar hparameter hname htarget h =>
    obtain ⟨target, htarget', hreaches⟩ := haccepts.label _ hname
    cases htarget.symm.trans htarget'
    exact h (hreaches hparameter)

theorem Statement.Violates.not_wellTyped {statement : Statement} {error : ResolutionError}
    (h : statement.Violates addressOf address error) :
    ¬ statement.WellTyped addressOf address := by
  rintro ⟨m, hm, haccepts⟩
  cases h with
  | unknownInstruction h => exact h m hm
  | @operandCount m' hm' h =>
    cases hm.unique hm'
    exact h haccepts.length_eq.symm
  | @operand m' _ hm' _ h =>
    cases hm.unique hm'
    obtain ⟨i, parameter, operand, hparameter, hoperand, hrefuses⟩ := h
    obtain ⟨hi, rfl⟩ := List.getElem?_eq_some_iff.mp hparameter
    obtain ⟨hi', rfl⟩ := List.getElem?_eq_some_iff.mp hoperand
    exact hrefuses.not_accepts ((List.forall₂_iff_get.mp haccepts).2 i hi hi')

/-! ## Operands -/

theorem Register.ends_resolve (r : Register) :
    Ends r.Denotes (fun e => (¬ ∃ n, r.Denotes n) ∧ e = .unknownRegister r.text) r.resolve := by
  unfold resolve
  split
  · next n hn => exact .ok (index?_eq_some_iff.mp hn)
  · next hnone =>
    refine .error ⟨fun ⟨n, hn⟩ => ?_, rfl⟩
    rw [index?_eq_some_iff.mpr hn] at hnone
    cases hnone

theorem NumericField.ends_ofText (field : NumericField) {text : String}
    (htext : ∃ v, Numeral.Denotes text.toList v) :
    Ends (fun v => Numeral.Denotes text.toList v ∧ field.Holds v)
      (fun e => ∃ v, Numeral.Denotes text.toList v ∧
        (2 ^ 63 ≤ v.natAbs ∧ e = .invalidNumber text ∨
          ¬ field.Holds v ∧ e = .outOfRange field v)) (field.ofText text) := by
  obtain ⟨v, hv⟩ := htext
  cases h : field.ofText text with
  | ok w =>
    obtain ⟨rfl, hholds⟩ := (ofText_eq_ok_iff hv).mp h
    exact .ok ⟨hv, hholds⟩
  | error e =>
    rcases (ofText_eq_error_iff hv).mp h with hlarge | ⟨-, hout⟩
    · exact .error ⟨v, hv, .inl hlarge⟩
    · exact .error ⟨v, hv, .inr hout⟩

namespace Operand

variable {parameters : List Parameter} {operands : List Operand} {parameter : Parameter}
  {operand : Operand} {field : NumericField} {i : Nat}

section
variable (hoperand : operands[i]? = some operand)
include hoperand

theorem ends_of_kind_ne {α : Type} {P : α → Prop} (hparameter : parameters[i]? = some parameter)
    (h : operand.kind ≠ parameter.kind) :
    Ends P (Parameter.AnyRefuses addressOf address parameters operands)
      (.error (.invalidOperand (i + 1) parameter.kind operand.kind)) :=
  .error ⟨i, parameter, operand, hparameter, hoperand, .kind h⟩

theorem ends_register? (hparameter : parameters[i]? = some .register) :
    Ends (fun n => Parameter.register.Accepts addressOf address operand ∧
        ∃ r, operand = .register r ∧ r.Denotes n)
      (Parameter.AnyRefuses addressOf address parameters operands) (operand.register? (i + 1)) := by
  cases operand with
  | register r =>
    refine r.ends_resolve.imp (fun n hn => ?_) ?_
    · refine ⟨⟨rfl, ?_, nofun, nofun⟩, r, rfl, hn⟩
      rintro _ ⟨⟩
      exact ⟨n, hn⟩
    · rintro _ ⟨hr, rfl⟩
      exact ⟨i, _, _, hparameter, hoperand, .register rfl r.isShownAs_text hr⟩
  | _ => exact ends_of_kind_ne hoperand hparameter nofun

theorem ends_ofText {text : String} (hparameter : parameters[i]? = some parameter)
    (hfield : field ∈ parameter.field?) (htext : text ∈ operand.numberIn?)
    (hnumber : ∃ v, Numeral.Denotes text.toList v) :
    Ends (fun v => Numeral.Denotes text.toList v ∧ field.Holds v)
      (Parameter.AnyRefuses addressOf address parameters operands) (field.ofText text) := by
  refine (field.ends_ofText hnumber).imp (fun _ h => h) ?_
  rintro _ ⟨v, hv, ⟨hlarge, rfl⟩ | ⟨hout, rfl⟩⟩
  · exact ⟨i, parameter, operand, hparameter, hoperand, .invalidNumber hfield htext hv hlarge⟩
  · exact ⟨i, parameter, operand, hparameter, hoperand, .outOfRange hfield htext hv hout⟩

theorem ends_number? (hparameter : parameters[i]? = some (.number field))
    (hlexical : operand.Lexical) :
    Ends (fun v => (Parameter.number field).Accepts addressOf address operand ∧
        ∃ text, operand = .number text ∧ Numeral.Denotes text.toList v ∧ field.Holds v)
      (Parameter.AnyRefuses addressOf address parameters operands)
      (operand.number? (i + 1) field) := by
  cases operand with
  | number text =>
    refine (ends_ofText hoperand hparameter rfl rfl hlexical).imp (fun v hv => ?_) fun _ h => h
    refine ⟨⟨rfl, nofun, ?_, nofun⟩, text, rfl, hv⟩
    rintro _ ⟨⟩ _ ⟨⟩
    exact ⟨v, hv⟩
  | _ => exact ends_of_kind_ne hoperand hparameter nofun

theorem ends_offset? (hparameter : parameters[i]? = some .offset) (hlexical : operand.Lexical) :
    Ends (fun p => Parameter.offset.Accepts addressOf address operand ∧
        ∃ text base, operand = .offset text base ∧ Numeral.Denotes text.toList p.1 ∧
          NumericField.offset.Holds p.1 ∧ base.Denotes p.2)
      (Parameter.AnyRefuses addressOf address parameters operands) (operand.offset? (i + 1)) := by
  cases operand with
  | offset text base =>
    refine (ends_ofText hoperand hparameter rfl rfl hlexical).bind fun v hv => ?_
    have hbase : Ends base.Denotes (Parameter.AnyRefuses addressOf address parameters operands)
        base.resolve := by
      refine base.ends_resolve.imp (fun _ h => h) ?_
      rintro _ ⟨hbase, rfl⟩
      exact ⟨i, _, _, hparameter, hoperand, .register rfl base.isShownAs_text hbase⟩
    refine hbase.bind fun n hn =>
      .ok ⟨⟨rfl, ?_, ?_, nofun⟩, text, base, rfl, hv.1, hv.2, hn⟩
    · rintro _ ⟨⟩
      exact ⟨n, hn⟩
    · rintro _ ⟨⟩ _ ⟨⟩
      exact ⟨v, hv⟩
  | _ => exact ends_of_kind_ne hoperand hparameter nofun

theorem ends_label? (hparameter : parameters[i]? = some parameter)
    (hkind : parameter.kind = .label) :
    Ends (fun target => ∃ name, operand = .label name ∧ addressOf name = some target)
      (Parameter.AnyRefuses addressOf address parameters operands)
      (operand.label? (i + 1) addressOf) := by
  cases operand with
  | label name =>
    unfold label?
    dsimp only
    split
    · next target htarget => exact .ok ⟨name, rfl, htarget⟩
    · next hnone => exact .error ⟨i, _, _, hparameter, hoperand, .undefinedLabel rfl hnone⟩
  | _ =>
    unfold label?
    rw [← hkind]
    exact ends_of_kind_ne hoperand hparameter (by rw [hkind]; nofun)

end

theorem accepts_label {name : String} {target : Address} (h : addressOf name = some target) :
    Parameter.label.Accepts addressOf address (.label name) := by
  refine ⟨rfl, nofun, nofun, ?_⟩
  rintro _ ⟨⟩
  exact ⟨target, h, nofun⟩

theorem accepts_target {name : String} {target : Address} (h : addressOf name = some target)
    (hreaches : Reaches address target) :
    Parameter.target.Accepts addressOf address (.label name) := by
  refine ⟨rfl, nofun, nofun, ?_⟩
  rintro _ ⟨⟩
  exact ⟨target, h, fun _ => hreaches⟩

end Operand

/-! ## Statements -/

/-- What the operation of an instruction promises. -/
structure Operation.Sound (addressOf : String → Option Address) (address : Address)
    (m : Mnemonic) (operands : List Operand) (op : Operation) : Prop where
  accepts : List.Forall₂ (Parameter.Accepts addressOf address) m.parameters operands
  gives : m.Gives addressOf address operands op
  fits : op.Fits

namespace Statement

variable {m : Mnemonic}

theorem ends_threeRegisters {f : Nat → Nat → Nat → Operation} (hm : m.ThreeRegisters f)
    (a b c : Operand) :
    Ends (Operation.Sound addressOf address m [a, b, c])
      (Parameter.AnyRefuses addressOf address m.parameters [a, b, c]) (threeRegisters f a b c) := by
  have hparameters : m.parameters = [.register, .register, .register] := by cases hm <;> rfl
  rw [hparameters]
  -- one `bind` for each operand, in the order in which resolution looks at them
  refine (Operand.ends_register? (i := 1) rfl rfl).bind fun rs ⟨hb, b, hb', hrs⟩ => ?_
  refine (Operand.ends_register? (i := 2) rfl rfl).bind fun rt ⟨hc, c, hc', hrt⟩ => ?_
  refine (Operand.ends_register? (i := 0) rfl rfl).bind fun rd ⟨ha, a, ha', hrd⟩ => ?_
  subst ha' hb' hc'
  refine .ok ⟨hparameters ▸ .cons ha (.cons hb (.cons hc .nil)),
    .placeless fun _ _ => .threeRegisters hm hrd hrs hrt, ?_⟩
  cases hm <;> exact ⟨hrd.lt, hrs.lt, hrt.lt⟩

theorem ends_shift {f : Nat → Nat → Nat → Operation} (hm : m.Shift f) (a b : Operand)
    {c : Operand} (hlexical : c.Lexical) :
    Ends (Operation.Sound addressOf address m [a, b, c])
      (Parameter.AnyRefuses addressOf address m.parameters [a, b, c]) (shift f a b c) := by
  have hparameters : m.parameters = [.register, .register, .number .shiftAmount] := by
    cases hm <;> rfl
  rw [hparameters]
  refine (Operand.ends_register? (i := 1) rfl rfl).bind fun rt ⟨hb, b, hb', hrt⟩ => ?_
  refine (Operand.ends_register? (i := 0) rfl rfl).bind fun rd ⟨ha, a, ha', hrd⟩ => ?_
  refine (Operand.ends_number? (i := 2) rfl rfl hlexical).bind
    fun amount ⟨hc, text, hc', htext, hmin, hmax⟩ => ?_
  subst ha' hb' hc'
  obtain ⟨n, rfl⟩ := Int.eq_ofNat_of_zero_le hmin
  have hn : n < 32 := Nat.lt_succ_of_le (Int.ofNat_le.mp hmax)
  refine .ok ⟨hparameters ▸ .cons ha (.cons hb (.cons hc .nil)),
    .placeless fun _ _ => .shift hm hrd hrt htext, ?_⟩
  cases hm <;> exact ⟨hrd.lt, hrt.lt, hn⟩

theorem ends_jr (a : Operand) :
    Ends (Operation.Sound addressOf address (.r .jr) [a])
      (Parameter.AnyRefuses addressOf address (Mnemonic.r .jr).parameters [a])
      ((a.register? 1).map Operation.jr) := by
  refine (Operand.ends_register? (i := 0) rfl rfl).map fun rs ⟨ha, a, ha', hrs⟩ => ?_
  subst ha'
  exact ⟨.cons ha .nil, .placeless fun _ _ => .jr hrs, hrs.lt⟩

theorem ends_immediate (a b : Operand) {c : Operand} (hlexical : c.Lexical) :
    Ends (Operation.Sound addressOf address (.i .addi) [a, b, c])
      (Parameter.AnyRefuses addressOf address (Mnemonic.i .addi).parameters [a, b, c])
      (immediate .addi a b c) := by
  refine (Operand.ends_register? (i := 1) rfl rfl).bind fun rs ⟨hb, b, hb', hrs⟩ => ?_
  refine (Operand.ends_register? (i := 0) rfl rfl).bind fun rt ⟨ha, a, ha', hrt⟩ => ?_
  refine (Operand.ends_number? (i := 2) rfl rfl hlexical).bind
    fun value ⟨hc, text, hc', htext, hmin, hmax⟩ => ?_
  subst ha' hb' hc'
  exact .ok ⟨.cons ha (.cons hb (.cons hc .nil)),
    .placeless fun _ _ => .addi hrt hrs htext,
    hrs.lt, hrt.lt, hmin, Int.lt_of_le_of_lt hmax (by decide)⟩

theorem ends_displaced {f : Nat → Nat → Int → Operation} (hm : m.Displaced f) (a : Operand)
    {b : Operand} (hlexical : b.Lexical) :
    Ends (Operation.Sound addressOf address m [a, b])
      (Parameter.AnyRefuses addressOf address m.parameters [a, b]) (displaced f a b) := by
  have hparameters : m.parameters = [.register, .offset] := by cases hm <;> rfl
  rw [hparameters]
  refine (Operand.ends_offset? (i := 1) rfl rfl hlexical).bind
    fun ⟨offset, rs⟩ ⟨hb, text, base, hb', htext, hholds, hrs⟩ => ?_
  refine (Operand.ends_register? (i := 0) rfl rfl).bind fun rt ⟨ha, a, ha', hrt⟩ => ?_
  subst ha' hb'
  refine .ok ⟨hparameters ▸ .cons ha (.cons hb .nil),
    .placeless fun _ _ => .displaced hm hrt hrs htext, ?_⟩
  have hfits : FitsImmediate offset :=
    ⟨hholds.1, Int.lt_of_le_of_lt hholds.2 (by decide)⟩
  cases hm <;> exact ⟨hrs.lt, hrt.lt, hfits⟩

theorem ends_branch {f : Nat → Nat → Int → Operation} (hm : m.Branch f) (a b c : Operand) :
    Ends (Operation.Sound addressOf address m [a, b, c])
      (Parameter.AnyRefuses addressOf address m.parameters [a, b, c])
      (branch f addressOf address a b c) := by
  have hparameters : m.parameters = [.register, .register, .target] := by cases hm <;> rfl
  rw [hparameters]
  refine (Operand.ends_label? (i := 2) rfl rfl rfl).bind fun target ⟨name, hc, htarget⟩ => ?_
  subst hc
  have hcheck : Ends (fun v => v = branchDistance address target ∧ Reaches address target)
      (Parameter.AnyRefuses addressOf address [.register, .register, .target] [a, b, .label name])
      (NumericField.branchOffset.check (branchDistance address target)) := by
    cases h : NumericField.branchOffset.check (branchDistance address target) with
    | ok v => exact .ok (NumericField.check_eq_ok_iff.mp h)
    | error e =>
      obtain ⟨hfar, rfl⟩ := NumericField.check_eq_error_iff.mp h
      exact .error ⟨2, _, _, rfl, rfl, .tooFar rfl rfl htarget hfar⟩
  refine hcheck.bind fun v ⟨hv, hreaches⟩ => ?_
  refine (Operand.ends_register? (i := 0) rfl rfl).bind fun rs ⟨ha, a, ha', hrs⟩ => ?_
  refine (Operand.ends_register? (i := 1) rfl rfl).bind fun rt ⟨hb, b, hb', hrt⟩ => ?_
  subst ha' hb' hv
  have haccepts := Operand.accepts_target htarget hreaches
  refine .ok ⟨hparameters ▸ .cons ha (.cons hb (.cons haccepts .nil)),
    .branch hm hrs hrt htarget, ?_⟩
  have hfits : FitsImmediate (branchDistance address target) :=
    ⟨hreaches.1, Int.lt_of_le_of_lt hreaches.2 (by decide)⟩
  cases hm <;> exact ⟨hrs.lt, hrt.lt, hfits⟩

theorem ends_jump {f : Nat → Operation} (hm : m.Jump f) (a : Operand) :
    Ends (Operation.Sound addressOf address m [a])
      (Parameter.AnyRefuses addressOf address m.parameters [a]) (jump f addressOf a) := by
  have hparameters : m.parameters = [.label] := by cases hm <;> rfl
  rw [hparameters]
  refine (Operand.ends_label? (i := 0) rfl rfl rfl).bind fun target ⟨name, ha, htarget⟩ => ?_
  subst ha
  refine .ok ⟨hparameters ▸ .cons (Operand.accepts_label htarget) .nil, .jump hm htarget, ?_⟩
  cases hm <;> exact Nat.mod_lt _ (by decide)

/-! ## What statements give -/

/-- Where there are no labels, branches denote nothing. -/
theorem not_denotes_of_branch {f : Nat → Nat → Int → Operation} (hm : m.Branch f) {slot : Nat}
    {operands : List Operand} {op : Operation} :
    ¬ m.Denotes (fun _ _ => False) slot operands op := by
  intro h
  cases h with
  | branch _ _ _ hc => exact hc.elim
  | threeRegisters hm' | shift hm' | displaced hm' | jump hm' => cases hm <;> cases hm'
  | jr | addi => cases hm

/-- Where there are no labels, jumps to a label denote nothing. -/
theorem not_denotes_of_jump {f : Nat → Operation} (hm : m.Jump f) {slot : Nat}
    {operands : List Operand} {op : Operation} :
    ¬ m.Denotes (fun _ _ => False) slot operands op := by
  intro h
  cases h with
  | jump _ ha => exact ha.elim
  | threeRegisters hm' | shift hm' | displaced hm' | branch hm' => cases hm <;> cases hm'
  | jr | addi => cases hm

theorem gives_unique {operands : List Operand} {op op' : Operation}
    (h : m.Gives addressOf address operands op) (h' : m.Gives addressOf address operands op') :
    op = op' := by
  cases h with
  | placeless h =>
    cases h' with
    | placeless h' => exact (h (fun _ _ => False) 0).unique (fun _ _ _ hk => hk.elim) (h' _ 0)
    | branch hm => exact absurd (h _ 0) (not_denotes_of_branch hm)
    | jump hm => exact absurd (h _ 0) (not_denotes_of_jump hm)
  | branch hm ha hb hc =>
    cases h' with
    | placeless h' => exact absurd (h' _ 0) (not_denotes_of_branch hm)
    | branch hm' ha' hb' hc' =>
      cases hc.symm.trans hc'
      rw [hm.unique hm', ha.unique ha', hb.unique hb']
  | jump hm ha =>
    cases h' with
    | placeless h' => exact absurd (h' _ 0) (not_denotes_of_jump hm)
    | jump hm' ha' =>
      cases ha.symm.trans ha'
      rw [hm.unique hm']

/-- A statement gives one operation at most. -/
theorem Gives.unique {statement : Statement} {op op' : Operation}
    (h : statement.Gives addressOf address op) (h' : statement.Gives addressOf address op') :
    op = op' := by
  obtain ⟨m, hm, h⟩ := h
  obtain ⟨m', hm', h'⟩ := h'
  cases hm.unique hm'
  exact gives_unique h h'

theorem eq_of_branchDistance {target : Address} (h : target.toNat % 4 = address.toNat % 4) :
    (target.toNat : Int) = address.toNat + 4 + 4 * branchDistance address target := by
  have hdvd : (4 : Int) ∣ (target.toNat : Int) - (address.toNat + 4) := by omega
  have hmul := Int.mul_tdiv_cancel' hdvd
  unfold branchDistance
  omega

/-- A branch gives the branch to its label and nothing else. -/
theorem exists_of_gives_branch {f : Nat → Nat → Int → Operation} (hm : m.Branch f)
    {operands : List Operand} {op : Operation} (h : m.Gives addressOf address operands op) :
    ∃ a b name rs rt target, operands = [.register a, .register b, .label name] ∧
      addressOf name = some target ∧ op = f rs rt (branchDistance address target) := by
  cases h with
  | placeless h => exact absurd (h _ 0) (not_denotes_of_branch hm)
  | branch hm' _ _ hc =>
    cases hm.unique hm'
    exact ⟨_, _, _, _, _, _, rfl, hc, rfl⟩
  | jump hm' => cases hm <;> cases hm'

/-- The operation that a branch gives goes to its label, if the offset fits. -/
theorem Gives.lands {statement : Statement} {op : Operation}
    (h : statement.Gives addressOf address op) (hfits : op.Fits) :
    statement.Lands addressOf address op.instruction := by
  obtain ⟨spelling, operands⟩ := statement
  obtain ⟨m, hm, h⟩ := h
  intro opCode hopCode
  dsimp only at hm hopCode
  obtain ⟨f, hf, rfl⟩ : ∃ f, m.Branch f ∧ m = .i opCode := by
    rcases hopCode with ⟨rfl, rfl⟩ | ⟨rfl, rfl⟩
    · cases hm.unique .beq
      exact ⟨_, .beq, rfl⟩
    · cases hm.unique .bne
      exact ⟨_, .bne, rfl⟩
  obtain ⟨a, b, name, rs, rt, target, rfl, htarget, rfl⟩ := exists_of_gives_branch hf h
  have hoffset : FitsImmediate (branchDistance address target) := by
    cases hf <;> exact hfits.2.2
  have himmediate : (Int16.ofInt (branchDistance address target)).toInt =
      branchDistance address target :=
    Int16.toInt_ofInt_of_le (by simpa using hoffset.1) (by simpa using hoffset.2)
  refine ⟨rs, rt, .ofInt (branchDistance address target), name, target, ?_, rfl, htarget, ?_⟩
  · cases hf <;> rfl
  · rw [himmediate]
    exact eq_of_branchDistance

/-! ## All statements -/

theorem resolve_of_length_ne {operands : List Operand} (h : operands.length ≠ m.arity) :
    resolve addressOf address ⟨m.name, operands⟩ =
      .error (.operandCount m.name m.arity operands.length) := by
  unfold resolve
  dsimp only
  rw [Mnemonic.ofName?_eq_some_iff.mpr rfl]
  dsimp only
  -- the operands of every case but the last are as many as its mnemonic takes
  split
  case h_16 => rfl
  all_goals exact absurd rfl h

theorem ends_resolve_of_length {operands : List Operand}
    (hlexical : ∀ operand ∈ operands, operand.Lexical) (h : operands.length = m.arity) :
    Ends (Operation.Sound addressOf address m operands)
      (Parameter.AnyRefuses addressOf address m.parameters operands)
      (resolve addressOf address ⟨m.name, operands⟩) := by
  unfold resolve
  dsimp only
  rw [Mnemonic.ofName?_eq_some_iff.mpr rfl]
  rcases m with function | opCode | opCode
  · cases function with
    | add | sub | and | or | slt =>
      obtain ⟨a, b, c, rfl⟩ := List.length_eq_three.mp h
      exact ends_threeRegisters (by constructor) a b c
    | sll | srl =>
      obtain ⟨a, b, c, rfl⟩ := List.length_eq_three.mp h
      exact ends_shift (by constructor) a b (hlexical c (by simp))
    | jr =>
      obtain ⟨a, rfl⟩ := List.length_eq_one_iff.mp h
      exact ends_jr a
  · cases opCode with
    | addi =>
      obtain ⟨a, b, c, rfl⟩ := List.length_eq_three.mp h
      exact ends_immediate a b (hlexical c (by simp))
    | lw | sw =>
      obtain ⟨a, b, rfl⟩ := List.length_eq_two.mp h
      exact ends_displaced (by constructor) a (hlexical b (by simp))
    | beq | bne =>
      obtain ⟨a, b, c, rfl⟩ := List.length_eq_three.mp h
      exact ends_branch (by constructor) a b c
  · obtain ⟨a, rfl⟩ := List.length_eq_one_iff.mp h
    cases opCode with
    | j | jal => exact ends_jump (by constructor) a

theorem ends_resolve (addressOf : String → Option Address) (address : Address)
    {statement : Statement} (hlexical : ∀ operand ∈ statement.operands, operand.Lexical) :
    Ends (fun op => ∃ m : Mnemonic, m.IsSpelled statement.mnemonic ∧
        op.Sound addressOf address m statement.operands)
      (statement.Violates addressOf address) (statement.resolve addressOf address) := by
  obtain ⟨spelling, operands⟩ := statement
  by_cases hname : ∃ m : Mnemonic, m.IsSpelled spelling
  · obtain ⟨m, hm⟩ := hname
    cases Mnemonic.isSpelled_iff.mp hm
    have hlength := m.length_parameters
    by_cases hcount : operands.length = m.arity
    · exact (ends_resolve_of_length hlexical hcount).imp (fun op hop => ⟨m, hm, hop⟩)
        fun e he => .operand hm (hcount.trans hlength.symm) he
    · rw [resolve_of_length_ne hcount, ← hlength]
      exact .error (.operandCount hm (hlength ▸ hcount))
  · have hnone : Mnemonic.ofName? spelling = none := by
      refine Option.eq_none_iff_forall_ne_some.mpr fun m hm => ?_
      exact hname ⟨m, Mnemonic.isSpelled_iff.mpr (Mnemonic.ofName?_eq_some_iff.mp hm)⟩
    unfold resolve
    dsimp only
    rw [hnone]
    exact .error (.unknownInstruction fun m hm => hname ⟨m, hm⟩)

/-- **Resolution is typing.**  A statement whose numbers are number texts is resolved exactly
if it is well typed, and then to the operation that it gives.  The fields of that are within
their widths, so its word shows them all again, and a branch goes to its label.  An error is
a fault that the statement has, and no statement with a fault is well typed. -/
theorem resolution_is_typing (addressOf : String → Option Address) (address : Address)
    (statement : Statement) (hnumbers : ∀ operand ∈ statement.operands,
      ∀ text ∈ operand.numberIn?, IsNumber text.toList) :
    ((∃ op, statement.resolve addressOf address = .ok op) ↔
      statement.WellTyped addressOf address) ∧
    (∀ op, statement.resolve addressOf address = .ok op →
      (∀ op', statement.Gives addressOf address op' ↔ op' = op) ∧ op.instruction.Fits ∧
      Instruction.ofWord op.instruction.encode = .ok op.instruction ∧
      decode op.instruction.encode = .ok op ∧
      statement.Lands addressOf address op.instruction) ∧
    (∀ error, statement.resolve addressOf address = .error error →
      statement.Violates addressOf address error) ∧
    ∀ error, statement.Violates addressOf address error →
      ¬ statement.WellTyped addressOf address := by
  have hlexical : ∀ operand ∈ statement.operands, operand.Lexical := by
    intro operand hoperand
    cases operand with
    | number text | offset text _ => exact (hnumbers _ hoperand text rfl).exists_denotes
    | register | label => trivial
  have hends := ends_resolve addressOf address hlexical
  refine ⟨⟨?_, fun htyped => ?_⟩, fun op hop => ?_, fun e he => hends.of_eq_error he,
    fun e he => he.not_wellTyped⟩
  · rintro ⟨op, hop⟩
    obtain ⟨m, hm, hsound⟩ := hends.of_eq_ok hop
    exact ⟨m, hm, hsound.accepts⟩
  · cases h : statement.resolve addressOf address with
    | ok op => exact ⟨op, rfl⟩
    | error e => exact absurd htyped (hends.of_eq_error h).not_wellTyped
  · obtain ⟨m, hm, hsound⟩ := hends.of_eq_ok hop
    have hgives : statement.Gives addressOf address op := ⟨m, hm, hsound.gives⟩
    have hfits := Instruction.fits_instruction hsound.fits
    refine ⟨fun op' => ⟨fun hop' => hop'.unique hgives, ?_⟩, hfits, ?_,
      decode_encode hsound.fits, hgives.lands hsound.fits⟩
    · rintro rfl
      exact hgives
    · rw [Instruction.ofWord_encode, Instruction.truncated_of_fits hfits]

theorem resolution_is_typing_of_branch_and_load :
    (∃ op, resolve (fun _ => some 0x400000) 0x41FFFC
        ⟨"beq", [.register (.numbered 8), .register (.numbered 9), .label "back"]⟩ = .ok op ∧
      op.instruction = .i .beq 8 9 (-32768) ∧ decode op.instruction.encode = .ok op ∧
      Lands (fun _ => some 0x400000) 0x41FFFC
        ⟨"beq", [.register (.numbered 8), .register (.numbered 9), .label "back"]⟩
        (.i .beq 8 9 (-32768))) ∧
    ¬ WellTyped (fun _ => none) 0x400000
        ⟨"lw", [.register (.numbered 8), .offset "0x8000" (.numbered 29)]⟩ := by
  constructor
  · have htyping := resolution_is_typing (fun _ => some 0x400000) 0x41FFFC
      ⟨"beq", [.register (.numbered 8), .register (.numbered 9), .label "back"]⟩
      (by simp [Operand.numberIn?])
    have hop : resolve (fun _ => some 0x400000) 0x41FFFC
        ⟨"beq", [.register (.numbered 8), .register (.numbered 9), .label "back"]⟩ =
          .ok (.beq 8 9 (-32768)) := by decide +kernel
    obtain ⟨-, -, -, hdecode, hlands⟩ := htyping.2.1 _ hop
    have hinstruction : (Operation.beq 8 9 (-32768)).instruction = .i .beq 8 9 (-32768) := by
      decide
    exact ⟨_, hop, hinstruction, hdecode, hinstruction ▸ hlands⟩
  · have hnumber : IsNumber "0x8000".toList :=
      .inr (show Terminal.hexadecimal.Matches ([] ++ '0' :: 'x' :: "8000".toList) from
        .hexadecimal (.inl rfl) (.inl rfl) (by decide) (List.all_eq_true.mp (by decide)))
    have htyping := resolution_is_typing (fun _ => none) 0x400000
      ⟨"lw", [.register (.numbered 8), .offset "0x8000" (.numbered 29)]⟩
      (by simpa [Operand.numberIn?] using hnumber)
    have herror : resolve (fun _ => none) 0x400000
        ⟨"lw", [.register (.numbered 8), .offset "0x8000" (.numbered 29)]⟩ =
          .error (.outOfRange .offset 32768) := by decide +kernel
    exact htyping.2.2.2 _ (htyping.2.2.1 _ herror)

end Statement
end Mips
