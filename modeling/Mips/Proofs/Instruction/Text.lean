import Mips.Instruction.Disassembly
import Mips.Proofs.Assembly.Denotation
import Mips.Proofs.Source.SingleLine
import Mips.Proofs.Source.WrittenNumber

/-!
# The texts of operations

The text of an operation that names no label is the text of a statement, and the statement
denotes the operation wherever it stands (`Operation.isWrittenAs_text`).  Registers are
displayed by names that are register tokens and stand for them (`Register.matches_display`,
`Register.denotes_display`), immediates and offsets by decimal numbers.
-/
namespace Mips

/-! ## Names -/

namespace Register

/-- Every register name is read as a name, and as itself. -/
theorem ofToken_of_mem_names : ∀ name ∈ names, name.toList ≠ [] ∧
    name.toList.all Text.isAlphanumeric ∧ ofToken ('$' :: name.toList) = .named name := by
  decide +kernel

variable {n : Nat}

theorem exists_name (h : n < 32) :
    ∃ name, names[n]? = some name ∧ (display n).toList = '$' :: name.toList := by
  have hname : names[n]? = some names[n] := List.getElem?_eq_getElem h
  refine ⟨names[n], hname, ?_⟩
  unfold display
  rw [hname]
  exact String.toList_append

theorem matches_display (h : n < 32) : Terminal.register.Matches (display n).toList := by
  obtain ⟨name, hname, hdisplay⟩ := exists_name h
  obtain ⟨hne, hall, -⟩ := ofToken_of_mem_names name (List.mem_of_getElem? hname)
  rw [hdisplay]
  exact .register hne (List.all_eq_true.mp hall)

/-- **A register is displayed by a name that stands for it.** -/
theorem denotes_display (h : n < 32) : (ofToken (display n).toList).Denotes n := by
  obtain ⟨name, hname, hdisplay⟩ := exists_name h
  obtain ⟨-, -, hnamed⟩ := ofToken_of_mem_names name (List.mem_of_getElem? hname)
  rw [hdisplay, hnamed]
  exact .named hname

end Register

/-- Mnemonics are spelled with letters. -/
theorem Mnemonic.isLetter_of_mem_all :
    ∀ m ∈ all, m.name.toList ≠ [] ∧ m.name.toList.all Text.isLetter := by
  decide +kernel

theorem Mnemonic.matches_name (m : Mnemonic) : Terminal.identifier.Matches m.name.toList := by
  have hmem : m ∈ all := List.mem_of_find?_eq_some (ofName?_eq_some_iff.mpr rfl)
  obtain ⟨hne, hall⟩ := isLetter_of_mem_all m hmem
  obtain ⟨c, rest, heq⟩ := List.exists_cons_of_ne_nil hne
  have hstart : ∀ c ∈ m.name.toList, Text.isNameStart c := fun c hc => by
    unfold Text.isNameStart
    rw [List.all_eq_true.mp hall c hc, Bool.true_or, Bool.true_or]
  rw [heq] at hstart ⊢
  exact .identifier (hstart c List.mem_cons_self) fun c hc =>
    Text.isNamePart_of_isNameStart (hstart c (List.mem_cons_of_mem _ hc))

/-! ## Operands -/

/-- The operand is written as the text, in a single line. -/
def Operand.IsWrittenAs (operand : Operand) (text : String) : Prop :=
  operand.Renders text.toList ∧ Text.IsPlain text.toList

section
variable {n : Nat}

theorem Operand.isWrittenAs_display (h : n < 32) :
    (Operand.register (Register.ofToken (Register.display n).toList)).IsWrittenAs
      (Register.display n) :=
  ⟨.register (Register.renders_ofToken (Register.matches_display h)),
    (Register.matches_display h).isPlain⟩

theorem Operand.isWrittenAs_decimal (v : Int) :
    (Operand.number (Numeral.decimal v)).IsWrittenAs (Numeral.decimal v) := by
  have hrenders := Operand.Renders.number (.inl (Numeral.matches_decimal v))
  rw [String.ofList_toList] at hrenders
  exact ⟨hrenders, (Numeral.matches_decimal v).isPlain⟩

theorem Operand.isWrittenAs_displaced (offset : Int) (h : n < 32) :
    (Operand.offset (Numeral.decimal offset)
      (Register.ofToken (Register.display n).toList)).IsWrittenAs
        (Operation.displaced offset n) := by
  have hregister := Register.matches_display h
  have hnumber := Numeral.matches_decimal offset
  have htext : (Operation.displaced offset n).toList = (Numeral.decimal offset).toList ++
      ([] ++ '(' :: ([] ++ ((Register.display n).toList ++ ([] ++ [')'])))) := by
    simp [Operation.displaced]
  have hrenders := Operand.Renders.offset (.inl hnumber) .nil .nil
    (Register.renders_ofToken hregister) .nil
  rw [String.ofList_toList] at hrenders
  unfold IsWrittenAs
  rw [htext]
  refine ⟨hrenders, ?_⟩
  simp only [List.nil_append, ← List.singleton_append (l := _ ++ _), Text.isPlain_append]
  exact ⟨hnumber.isPlain, by decide, hregister.isPlain, by decide⟩

end

/-- Operands with a comma and a space between them are what a statement has behind its
mnemonic. -/
theorem Operand.tail_intercalate {operands : List Operand} {texts : List String}
    (h : List.Forall₂ Operand.IsWrittenAs operands texts) (first : List Char) :
    ∃ rest, [',', ' '].intercalate (first :: texts.map String.toList) = first ++ rest ∧
      Operand.Tail operands rest ∧ Text.IsPlain rest := by
  induction h generalizing first with
  | nil => exact ⟨[], by simp, .nil, by decide⟩
  | @cons operand text operands texts hoperand hrest ih =>
    obtain ⟨rest, hrest, htail, hplain⟩ := ih text.toList
    have hspace : Blanks [' '] := List.forall_mem_singleton.mpr (by decide)
    have hseparator : Separator ([] ++ ',' :: [' ']) := .comma .nil hspace
    refine ⟨[',', ' '] ++ (text.toList ++ rest), ?_, .cons hseparator hoperand.1 htail, ?_⟩
    · rw [List.map_cons, List.intercalate_cons_cons, hrest, List.append_assoc]
    · simp only [Text.isPlain_append]
      exact ⟨by decide, hoperand.2, hplain⟩

/-! ## Statements -/

namespace Operation

/-- The text is one of a statement that denotes the operation wherever it stands, and it
has a single line. -/
def IsWrittenAs (op : Operation) (text : String) : Prop :=
  ∃ statement : Statement, statement.Renders text.toList ∧ Text.IsPlain text.toList ∧
    ∀ labels slot, statement.Denotes labels slot op

/-- A mnemonic in front of operands is written as one expects. -/
theorem isWrittenAs_written {op : Operation} {m : Mnemonic} {operand : Operand}
    {operands : List Operand} {text : String} {texts : List String}
    (hfirst : operand.IsWrittenAs text)
    (hrest : List.Forall₂ Operand.IsWrittenAs operands texts)
    (hdenotes : ∀ labels slot, m.Denotes labels slot (operand :: operands) op) :
    op.IsWrittenAs (written m.name (text :: texts)) := by
  obtain ⟨rest, htexts, htail, hplain⟩ := Operand.tail_intercalate hrest text.toList
  have htext : (written m.name (text :: texts)).toList =
      m.name.toList ++ ([' '] ++ (text.toList ++ rest)) := by
    rw [← htexts]
    simp [written, String.toList_intercalate]
  have hgap : Blanks [' '] := List.forall_mem_singleton.mpr (by decide)
  have hrenders :=
    Statement.Renders.operands m.matches_name (List.cons_ne_nil _ _) hgap hfirst.1 htail
  refine ⟨⟨m.name, operand :: operands⟩, ?_, ?_, ?_⟩
  · rw [htext]
    rwa [String.ofList_toList] at hrenders
  · simp only [htext, Text.isPlain_append]
    exact ⟨m.matches_name.isPlain, by decide, hfirst.2, hplain⟩
  · intro labels slot
    exact ⟨m, Mnemonic.isSpelled_iff.mpr rfl, hdenotes labels slot⟩

/-- The operation is written with the name of a label. -/
def NamesLabel : Operation → Prop
  | .beq _ _ _ | .bne _ _ _ | .j _ | .jal _ => True
  | _ => False

instance : DecidablePred NamesLabel
  | .beq .. | .bne .. | .j _ | .jal _ => .isTrue trivial
  | .add .. | .sub .. | .and .. | .or .. | .slt .. | .sll .. | .srl .. | .jr _ | .addi ..
  | .lw .. | .sw .. => .isFalse id

section
variable {m : Mnemonic} {rd rs rt amount : Nat} {offset : Int} (pc : Address)

theorem isWrittenAs_threeRegisters {f : Nat → Nat → Nat → Operation} (hm : m.ThreeRegisters f)
    (hd : rd < 32) (hs : rs < 32) (ht : rt < 32) :
    (f rd rs rt).IsWrittenAs ((f rd rs rt).text pc) := by
  have htext : (f rd rs rt).text pc =
      written m.name [Register.display rd, Register.display rs, Register.display rt] := by
    cases hm <;> rfl
  rw [htext]
  exact isWrittenAs_written (Operand.isWrittenAs_display hd)
    (.cons (Operand.isWrittenAs_display hs) (.cons (Operand.isWrittenAs_display ht) .nil))
    fun _ _ => .threeRegisters hm (Register.denotes_display hd) (Register.denotes_display hs)
      (Register.denotes_display ht)

theorem isWrittenAs_shift {f : Nat → Nat → Nat → Operation} (hm : m.Shift f)
    (hd : rd < 32) (ht : rt < 32) :
    (f rd rt amount).IsWrittenAs ((f rd rt amount).text pc) := by
  have htext : (f rd rt amount).text pc =
      written m.name [Register.display rd, Register.display rt, Numeral.decimal amount] := by
    cases hm <;> rfl
  rw [htext]
  exact isWrittenAs_written (Operand.isWrittenAs_display hd)
    (.cons (Operand.isWrittenAs_display ht) (.cons (Operand.isWrittenAs_decimal amount) .nil))
    fun _ _ => .shift hm (Register.denotes_display hd) (Register.denotes_display ht)
      (Numeral.denotes_decimal amount)

theorem isWrittenAs_jr (hs : rs < 32) : (jr rs).IsWrittenAs ((jr rs).text pc) :=
  isWrittenAs_written (m := .r .jr) (Operand.isWrittenAs_display hs) .nil
    fun _ _ => .jr (Register.denotes_display hs)

theorem isWrittenAs_addi (hs : rs < 32) (ht : rt < 32) :
    (addi rt rs offset).IsWrittenAs ((addi rt rs offset).text pc) :=
  isWrittenAs_written (m := .i .addi) (Operand.isWrittenAs_display ht)
    (.cons (Operand.isWrittenAs_display hs) (.cons (Operand.isWrittenAs_decimal offset) .nil))
    fun _ _ => .addi (Register.denotes_display ht) (Register.denotes_display hs)
      (Numeral.denotes_decimal offset)

theorem isWrittenAs_displaced {f : Nat → Nat → Int → Operation} (hm : m.Displaced f)
    (hs : rs < 32) (ht : rt < 32) :
    (f rt rs offset).IsWrittenAs ((f rt rs offset).text pc) := by
  have htext : (f rt rs offset).text pc =
      written m.name [Register.display rt, displaced offset rs] := by
    cases hm <;> rfl
  rw [htext]
  exact isWrittenAs_written (Operand.isWrittenAs_display ht)
    (.cons (Operand.isWrittenAs_displaced offset hs) .nil)
    fun _ _ => .displaced hm (Register.denotes_display ht) (Register.denotes_display hs)
      (Numeral.denotes_decimal offset)

end

/-- **The text of an operation denotes the operation**, if no label is named. -/
theorem isWrittenAs_text {op : Operation} (hfits : op.Fits) (hop : ¬ op.NamesLabel)
    (pc : Address) : op.IsWrittenAs (op.text pc) := by
  cases op with
  | add => exact isWrittenAs_threeRegisters pc .add hfits.1 hfits.2.1 hfits.2.2
  | sub => exact isWrittenAs_threeRegisters pc .sub hfits.1 hfits.2.1 hfits.2.2
  | and => exact isWrittenAs_threeRegisters pc .and hfits.1 hfits.2.1 hfits.2.2
  | or => exact isWrittenAs_threeRegisters pc .or hfits.1 hfits.2.1 hfits.2.2
  | slt => exact isWrittenAs_threeRegisters pc .slt hfits.1 hfits.2.1 hfits.2.2
  | sll => exact isWrittenAs_shift pc .sll hfits.1 hfits.2.1
  | srl => exact isWrittenAs_shift pc .srl hfits.1 hfits.2.1
  | jr => exact isWrittenAs_jr pc hfits
  | addi => exact isWrittenAs_addi pc hfits.1 hfits.2.1
  | lw => exact isWrittenAs_displaced pc .lw hfits.1 hfits.2.1
  | sw => exact isWrittenAs_displaced pc .sw hfits.1 hfits.2.1
  | beq | bne | j | jal => exact absurd trivial hop

end Operation
end Mips
