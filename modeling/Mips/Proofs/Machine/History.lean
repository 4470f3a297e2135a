import Mathlib.Data.List.Induction
import Mips.Proofs.Machine.Steps

/-!
# Histories

What a machine has been through since it was loaded is a list of calls, each a step or
a reset (`Machine.after`).  Three things hold whatever the calls were: the program and
the configuration are still the same, the machine is running exactly while its program
counter lies within the program (`Machine.attuned_after`), and the program counter lies
on a word boundary unless some `jr` since the last reset has jumped off
(`Machine.aligned_after`).  The last holds because every other instruction, and also
the skipping of a failed one, moves the counter by multiples of four.
-/
namespace Mips

/-- What can be asked of a machine. -/
inductive Call where
  | step
  | reset
deriving DecidableEq

/-- Only `jr` takes an aligned program counter off the word boundaries. -/
theorem Architecture.aligned_next {s s' : Architecture} {op : Operation}
    (h : s.next op = some s') (hpc : s.pc % 4 = 0) :
    s'.pc % 4 = 0 ∨ ∃ rs, op = .jr rs ∧ s'.pc = s.register rs := by
  have hadvance : (s.pc + 4) % 4 = 0 := by omega
  cases op with
  | jr rs =>
    cases h
    exact .inr ⟨rs, rfl, rfl⟩
  | lw | sw =>
    obtain ⟨value, -, rfl⟩ := Option.map_eq_some_iff.mp h
    exact .inl hadvance
  | beq rs rt offset | bne rs rt offset =>
    have hbranch : s.branchTarget offset % 4 = 0 := by
      unfold branchTarget wrap
      omega
    cases h
    left
    split
    · exact hbranch
    · exact hadvance
  | j index | jal index =>
    have hjump : s.jumpTarget index % 4 = 0 := by
      unfold jumpTarget
      omega
    cases h
    exact .inl hjump
  | _ =>
    cases h
    exact .inl hadvance

namespace Machine

/-- The machine after a call. -/
def call (m : Machine) : Call → Machine
  | .step => m.step.1
  | .reset => m.reset

/-- The machine after calls, the first of the list first. -/
def after (m : Machine) (calls : List Call) : Machine :=
  calls.foldl call m

variable {m : Machine}

@[simp] theorem after_nil : m.after [] = m := rfl

theorem after_concat (calls : List Call) (c : Call) :
    m.after (calls ++ [c]) = (m.after calls).call c := by
  simp [after]

theorem after_append (calls calls' : List Call) :
    m.after (calls ++ calls') = (m.after calls).after calls' :=
  List.foldl_append

/-- A machine that a step leaves as it is stays so for any number of steps. -/
theorem after_replicate_step {fault? : Option Fault} (h : m.step = (m, fault?)) (n : Nat) :
    m.after (List.replicate n .step) = m := by
  induction n with
  | zero => rfl
  | succ n ih =>
    rw [List.replicate_succ', after_concat, ih]
    exact congrArg Prod.fst h

/-- What holds of a machine at first and is kept by every call holds after any
calls. -/
theorem after_induction {P : List Call → Machine → Prop} (hstart : P [] m)
    (hcall : ∀ calls c m', P calls m' → P (calls ++ [c]) (m'.call c)) (calls : List Call) :
    P calls (m.after calls) := by
  induction calls using List.reverseRecOn with
  | nil => exact hstart
  | append_singleton calls c ih =>
    rw [after_concat]
    exact hcall calls c _ ih

/-! ## Program and configuration -/

theorem faulted_eq : m.faulted =
    { m with pc := m.faulted.pc, status := m.faulted.status } := by
  unfold faulted
  split <;> rfl

theorem Steps.text_eq {m' : Machine} {fault? : Option Fault} (h : m.Steps m' fault?) :
    m'.text = m.text := by
  cases h with
  | idle | carries => rfl
  | unfetched | undecodable | denied => rw [faulted_eq]

theorem text_after (calls : List Call) : (m.after calls).text = m.text := by
  refine after_induction (P := fun _ m' => m'.text = m.text) rfl (fun calls c m' ih => ?_) calls
  cases c with
  | step => exact m'.steps_step.text_eq.trans ih
  | reset => exact ih

theorem Steps.config_eq {m' : Machine} {fault? : Option Fault} (h : m.Steps m' fault?) :
    m'.config = m.config := by
  cases h with
  | idle | carries => rfl
  | unfetched | undecodable | denied => rw [faulted_eq]

theorem config_after (calls : List Call) : (m.after calls).config = m.config := by
  refine after_induction (P := fun _ m' => m'.config = m.config) rfl
    (fun calls c m' ih => ?_) calls
  cases c with
  | step => exact m'.steps_step.config_eq.trans ih
  | reset => exact ih

/-! ## Running and finished -/

theorem Steps.attuned {m' : Machine} {fault? : Option Fault} (hsteps : m.Steps m' fault?)
    (h : m.Attuned) : m'.Attuned := by
  cases hsteps with
  | idle => exact h
  | carries | unfetched | undecodable | denied => exact attuned_refreshed _

/-- **The status of a machine is never out of date.** -/
theorem attuned_after (h : m.Attuned) (calls : List Call) : (m.after calls).Attuned := by
  refine after_induction (P := fun _ => Attuned) h (fun calls c m' ih => ?_) calls
  cases c with
  | step => exact m'.steps_step.attuned ih
  | reset => exact attuned_refreshed _

/-! ## Alignment -/

/-- The machine is about to execute a `jr` to an address between two words. -/
def JumpsAstray (m : Machine) : Prop :=
  m.status = .running ∧ ∃ w rs target, m.fetch = .ok w ∧ decode w = .ok (.jr rs) ∧
    m.registers.read rs = .ok target ∧ target.toNat % 4 ≠ 0

/-- One of the calls has executed a `jr` to an address between two words, and there was
no reset after it. -/
def AstrayAfter (m : Machine) (calls : List Call) : Prop :=
  ∃ before rest, calls = before ++ .step :: rest ∧ .reset ∉ rest ∧
    (m.after before).JumpsAstray

theorem AstrayAfter.concat_step {calls : List Call} (h : m.AstrayAfter calls) :
    m.AstrayAfter (calls ++ [.step]) := by
  obtain ⟨before, rest, rfl, hrest, hjump⟩ := h
  refine ⟨before, rest ++ [.step], by simp, ?_, hjump⟩
  simpa using hrest

theorem toNat_pc_skipped_mod (m : Machine) : m.skipped.pc.toNat % 4 = m.pc.toNat % 4 := by
  show (m.pc + 4).toNat % 4 = m.pc.toNat % 4
  rw [UInt32.toNat_add]
  have hfour : (4 : UInt32).toNat = 4 := rfl
  omega

theorem toNat_pc_faulted_mod (m : Machine) : m.faulted.pc.toNat % 4 = m.pc.toNat % 4 := by
  unfold faulted
  split
  · exact m.toNat_pc_skipped_mod
  · rfl

/-- A step from a word boundary ends on one, unless it jumps astray. -/
theorem Steps.aligned {m' : Machine} {fault? : Option Fault} (h : m.Steps m' fault?)
    (hpc : m.pc.toNat % 4 = 0) : m'.pc.toNat % 4 = 0 ∨ m.JumpsAstray := by
  cases h with
  | idle => exact .inl hpc
  | @carries w op effect hstatus hfetch hdecode heffect hnext =>
    rcases Architecture.aligned_next hnext hpc with haligned | ⟨rs, rfl, htarget⟩
    · exact .inl haligned
    · obtain ⟨target, hread, hvalue⟩ := read_eq_ok (m := m) (fits_of_decode hdecode)
      rw [hvalue] at htarget
      by_cases haligned : target.toNat % 4 = 0
      · exact .inl ((congrArg (· % 4) htarget).trans haligned)
      · exact .inr ⟨hstatus, w, rs, target, hfetch, hdecode, hread, haligned⟩
  | unfetched | undecodable | denied => exact .inl ((toNat_pc_faulted_mod m).trans hpc)

/-- **The program counter lies on a word boundary** unless a `jr` since the last reset
has jumped astray. -/
theorem aligned_after (hpc : m.pc.toNat % 4 = 0) (calls : List Call) :
    (m.after calls).pc.toNat % 4 = 0 ∨ m.AstrayAfter calls := by
  induction calls using List.reverseRecOn with
  | nil => exact .inl hpc
  | append_singleton calls c ih =>
    rw [after_concat]
    cases c with
    | reset => exact .inl (by decide : textBase.toNat % 4 = 0)
    | step =>
      -- the step can be the jump itself, and it does not undo an earlier one
      rcases ih with haligned | hastray
      · rcases (m.after calls).steps_step.aligned haligned with haligned' | hjump
        · exact .inl haligned'
        · exact .inr ⟨calls, [], rfl, List.not_mem_nil, hjump⟩
      · exact .inr hastray.concat_step

end Machine
end Mips
