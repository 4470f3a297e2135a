import Mips.Assembly.Resolution
import Mips.Proofs.Outcome

/-!
# Other names for labels

A label operand is the only place where a statement depends on a name, and what it takes
from there is an address.  So a statement with other names for its labels denotes the same
operation, if the addresses have moved to the new names (`Statement.resolve_renamed`).
-/
namespace Mips

/-- The operand with another name for its label. -/
def Operand.renamed (ρ : String → String) : Operand → Operand
  | .label name => .label (ρ name)
  | other => other

/-- The statement with other names for its labels. -/
def Statement.renamed (ρ : String → String) (statement : Statement) : Statement :=
  { statement with operands := statement.operands.map (Operand.renamed ρ) }

/-- The line with other names for the label that it defines and for those in its
statement. -/
def Line.renamed (ρ : String → String) : Line → Line
  | .label name => .label (ρ name)
  | .statement label? content => .statement (label?.map ρ) (content.renamed ρ)

namespace Operand

theorem renamed_id (operand : Operand) : operand.renamed id = operand := by
  cases operand <;> rfl

variable {ρ : String → String} {operand : Operand}

theorem register?_renamed (position : Nat) :
    (operand.renamed ρ).register? position = operand.register? position := by
  cases operand <;> rfl

theorem number?_renamed (position : Nat) (field : NumericField) :
    (operand.renamed ρ).number? position field = operand.number? position field := by
  cases operand <;> rfl

theorem offset?_renamed (position : Nat) :
    (operand.renamed ρ).offset? position = operand.offset? position := by
  cases operand <;> rfl

theorem label?_renamed {addressOf addressOf' : String → Option Address}
    (haddress : ∀ name address, addressOf name = some address → addressOf' (ρ name) = some address)
    {position : Nat} {address : Address} (h : operand.label? position addressOf = .ok address) :
    (operand.renamed ρ).label? position addressOf' = .ok address := by
  cases operand with
  | label name =>
    cases hname : addressOf name with
    | none =>
      simp only [label?, hname] at h
      cases h
    | some found =>
      simp only [label?, hname] at h
      simp only [renamed, label?, haddress name found hname]
      exact h
  | register _ | number _ | offset _ _ => cases h

end Operand

namespace Statement

theorem renamed_id (statement : Statement) : statement.renamed id = statement := by
  have hoperands : statement.operands.map (Operand.renamed id) = statement.operands :=
    (List.map_congr_left fun operand _ => operand.renamed_id).trans (List.map_id _)
  rw [renamed, hoperands]

variable {ρ : String → String} {a b c : Operand}

theorem threeRegisters_renamed (f : Nat → Nat → Nat → Operation) :
    threeRegisters f (a.renamed ρ) (b.renamed ρ) (c.renamed ρ) = threeRegisters f a b c := by
  simp only [threeRegisters, Operand.register?_renamed]

theorem shift_renamed (f : Nat → Nat → Nat → Operation) :
    shift f (a.renamed ρ) (b.renamed ρ) (c.renamed ρ) = shift f a b c := by
  simp only [shift, Operand.register?_renamed, Operand.number?_renamed]

theorem immediate_renamed (f : Nat → Nat → Int → Operation) :
    immediate f (a.renamed ρ) (b.renamed ρ) (c.renamed ρ) = immediate f a b c := by
  simp only [immediate, Operand.register?_renamed, Operand.number?_renamed]

theorem displaced_renamed (f : Nat → Nat → Int → Operation) :
    displaced f (a.renamed ρ) (b.renamed ρ) = displaced f a b := by
  simp only [displaced, Operand.register?_renamed, Operand.offset?_renamed]

section
variable {addressOf addressOf' : String → Option Address} {address : Address} {op : Operation}
  (haddress : ∀ name found, addressOf name = some found → addressOf' (ρ name) = some found)
include haddress

theorem branch_renamed (f : Nat → Nat → Int → Operation)
    (h : branch f addressOf address a b c = .ok op) :
    branch f addressOf' address (a.renamed ρ) (b.renamed ρ) (c.renamed ρ) = .ok op := by
  obtain ⟨target, htarget, hrest⟩ := bind_eq_ok.mp h
  refine bind_eq_ok.mpr ⟨target, Operand.label?_renamed haddress htarget, ?_⟩
  simp only [Operand.register?_renamed]
  exact hrest

theorem jump_renamed (f : Nat → Operation) (h : jump f addressOf a = .ok op) :
    jump f addressOf' (a.renamed ρ) = .ok op := by
  obtain ⟨target, htarget, hrest⟩ := bind_eq_ok.mp h
  exact bind_eq_ok.mpr ⟨target, Operand.label?_renamed haddress htarget, hrest⟩

/-- **Names do not matter to a statement.**  It denotes the same operation with other names
for its labels, if the new names have the addresses of the old ones. -/
theorem resolve_renamed {statement : Statement}
    (h : statement.resolve addressOf address = .ok op) :
    (statement.renamed ρ).resolve addressOf' address = .ok op := by
  obtain ⟨spelling, operands⟩ := statement
  unfold resolve at h ⊢
  dsimp only [renamed] at h ⊢
  cases hname : Mnemonic.ofName? spelling with
  | none =>
    rw [hname] at h
    cases h
  | some m =>
    rw [hname] at h
    dsimp only at h ⊢
    split at h
    · exact (threeRegisters_renamed .add).trans h
    · exact (threeRegisters_renamed .sub).trans h
    · exact (threeRegisters_renamed .and).trans h
    · exact (threeRegisters_renamed .or).trans h
    · exact (threeRegisters_renamed .slt).trans h
    · exact (shift_renamed .sll).trans h
    · exact (shift_renamed .srl).trans h
    · exact (congrArg (Except.map Operation.jr) (Operand.register?_renamed 1)).trans h
    · exact (immediate_renamed .addi).trans h
    · exact (displaced_renamed .lw).trans h
    · exact (displaced_renamed .sw).trans h
    · exact branch_renamed haddress .beq h
    · exact branch_renamed haddress .bne h
    · exact jump_renamed haddress .j h
    · exact jump_renamed haddress .jal h
    · cases h

end

end Statement
end Mips
