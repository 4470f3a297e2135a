import Mips.Proofs.Machine.Progress

/-!
# Programs that only move forward

A program moves forward if it has no `jr`, none of its branches leads back, and each of its
jumps leads to a higher address (`MovesForward`); words that are no instructions do no harm.
Whatever happens in one step of such a program, the program counter grows: an operation that
is carried out takes it further up, and a permissive machine goes on behind an instruction
that fails (`Machine.pc_step_of_movesForward`).  So a run takes at most as many steps as the
program has words, in permissive mode to the end of the program and in strict mode to the
end or to a fault (`Machine.forward_programs_end`).

Without branches and jumps (`IsStraight`) every word takes exactly one step, and each step is
either counted or a fault (`Machine.steps_add_faultCount`).
-/
namespace Mips

namespace Operation

/-- From `address` the operation leads to a higher address, whatever is in the registers. -/
def MovesForward (address : Address) : Operation → Prop
  | .jr _ => False
  | .beq _ _ offset | .bne _ _ offset => 0 ≤ offset
  | .j index | .jal index => address < jumpTarget address index
  | _ => True

/-- The operation can lead elsewhere than to the instruction behind it. -/
def Transfers : Operation → Prop
  | .jr _ | .beq _ _ _ | .bne _ _ _ | .j _ | .jal _ => True
  | _ => False

theorem movesForward_of_not_transfers {op : Operation} (h : ¬ op.Transfers)
    (address : Address) : op.MovesForward address := by
  cases op with
  | jr | beq | bne | j | jal => exact absurd trivial h
  | _ => trivial

end Operation

/-- Every instruction among the words of a program leads to a higher address. -/
def MovesForward (program : Array Word) : Prop :=
  ∀ slot w op, program[slot]? = some w → decode w = .ok op →
    op.MovesForward (textAddress slot)

/-- No instruction among the words of a program leads elsewhere than to the next one. -/
def IsStraight (program : Array Word) : Prop :=
  ∀ w ∈ program, ∀ op, decode w = .ok op → ¬ op.Transfers

theorem IsStraight.movesForward {program : Array Word} (h : IsStraight program) :
    MovesForward program := by
  intro slot w op hw hdecode
  exact Operation.movesForward_of_not_transfers (h w (Array.mem_of_getElem? hw) op hdecode) _

/-! ## One operation -/

namespace Architecture

variable {s s' : Architecture} {op : Operation}

theorem pc_of_next (h : s.next op = some s') (hop : ¬ op.Transfers) : s'.pc = s.pc + 4 := by
  cases op with
  | jr | beq | bne | j | jal => exact absurd trivial hop
  | lw | sw =>
    obtain ⟨value, -, rfl⟩ := Option.map_eq_some_iff.mp h
    rfl
  | _ =>
    cases h
    rfl

/-- A branch that does not lead back does not wrap around either. -/
theorem lt_branchTarget {offset : Int} (hpc : s.pc < 2 ^ 28) (hoffset : 0 ≤ offset)
    (hfits : FitsImmediate offset) : s.pc < s.branchTarget offset := by
  obtain ⟨-, hhigh⟩ := hfits
  unfold branchTarget wrap
  omega

theorem lt_pc_of_next {address : Address} (h : s.next op = some s') (hfits : op.Fits)
    (hpc : s.pc = address.toNat) (hregion : s.pc < 2 ^ 28)
    (hforward : op.MovesForward address) : s.pc < s'.pc := by
  have hadvance : s.pc < s.pc + 4 := Nat.lt_add_of_pos_right (by decide)
  cases op with
  | jr => exact hforward.elim
  | beq rs rt offset | bne rs rt offset =>
    have hbranch := lt_branchTarget hregion hforward hfits.2.2
    cases h
    split
    · exact hbranch
    · exact hadvance
  | j index | jal index =>
    have hjump : address.toNat < (Mips.jumpTarget address index).toNat :=
      UInt32.lt_iff_toNat_lt.mp hforward
    rw [Machine.toNat_jumpTarget address hfits, ← hpc] at hjump
    cases h
    exact hjump
  | _ =>
    rw [pc_of_next h id]
    exact hadvance

end Architecture

/-! ## One step -/

namespace Machine

variable {m : Machine} {k limit : Nat}

/-- The word that a machine fetches is one of its program. -/
theorem mem_words_of_fetch {w : Word} (h : m.fetch = .ok w) : w ∈ m.text.words := by
  obtain ⟨i, hi, -⟩ := fetch_eq_ok_iff.mp h
  exact Array.mem_of_getElem? hi

theorem movesForward_of_fetch (hforward : MovesForward m.text.words) {w : Word}
    {op : Operation} (hfetch : m.fetch = .ok w) (hdecode : decode w = .ok op) :
    op.MovesForward m.pc := by
  obtain ⟨i, hi, hpc⟩ := fetch_eq_ok_iff.mp hfetch
  have hslot : i < m.text.size := (Array.getElem?_eq_some_iff.mp hi).1
  have hmax := m.text.size_le_maxCapacity
  have haddress : textAddress i = m.pc := by
    rw [← UInt32.toNat_inj, toNat_textAddress (by omega), hpc]
  rw [← haddress]
  exact hforward i w op hi hdecode

/-- A program that moves forward has nothing to jump astray with. -/
theorem not_jumpsAstray (hforward : MovesForward m.text.words) : ¬ m.JumpsAstray := by
  rintro ⟨-, w, rs, -, hfetch, hdecode, -⟩
  exact movesForward_of_fetch hforward hfetch hdecode

theorem aligned_of_movesForward (hforward : MovesForward m.text.words)
    (haligned : m.pc.toNat % 4 = 0) (calls : List Call) :
    (m.after calls).pc.toNat % 4 = 0 := by
  rcases aligned_after haligned calls with h | ⟨before, -, -, -, hastray⟩
  · exact h
  · have hforward' : MovesForward (m.after before).text.words := by rwa [text_after]
    exact absurd hastray (not_jumpsAstray hforward')

/-- A step that leaves no strict machine on a failed instruction takes the program counter
up. -/
theorem Steps.lt_pc {m' : Machine} {fault? : Option Fault} (h : m.Steps m' fault?)
    (hattuned : m.Attuned) (hforward : MovesForward m.text.words)
    (hrunning : m.status = .running)
    (hclean : m.config.permissive = false → fault? = none) : m.pc.toNat < m'.pc.toNat := by
  cases h with
  | idle hfinished => cases hrunning.symm.trans hfinished
  | carries _ hfetch hdecode _ hnext =>
    have hcontains := TextSegment.contains_iff.mp (hattuned.mp hrunning)
    have hmax := m.text.size_le_maxCapacity
    have hregion : m.architecture.pc < 2 ^ 28 := by
      show m.pc.toNat < 2 ^ 28
      omega
    exact Architecture.lt_pc_of_next hnext (fits_of_decode hdecode) rfl hregion
      (movesForward_of_fetch hforward hfetch hdecode)
  | unfetched | undecodable | denied =>
    -- there is a fault, so the machine is permissive
    have hpermissive : m.config.permissive = true := by
      by_contra hstrict
      cases hclean (Bool.eq_false_of_not_eq_true hstrict)
    rw [hattuned.toNat_pc_faulted hrunning hpermissive]
    exact Nat.lt_add_of_pos_right (by decide)

section
variable (hattuned : m.Attuned) (haligned : m.pc.toNat % 4 = 0)
  (hforward : MovesForward m.text.words)
include hattuned haligned hforward

/-- A step behind which a run goes on leads to a later instruction. -/
theorem pc_step_of_movesForward (hgoes : m.GoesOn) :
    m.pc.toNat + 4 ≤ m.step.1.pc.toNat := by
  have hgrows := m.steps_step.lt_pc hattuned hforward hgoes.1 hgoes.2
  have haligned' := (m.steps_step.aligned haligned).resolve_right (not_jumpsAstray hforward)
  omega

theorem pc_afterSteps_of_movesForward (hgoes : ∀ j < k, (m.afterSteps j).GoesOn) :
    m.pc.toNat + 4 * k ≤ (m.afterSteps k).pc.toNat := by
  induction k with
  | zero => exact Nat.le_refl _
  | succ k ih =>
    have hpc := ih fun j hj => hgoes j (Nat.lt_succ_of_lt hj)
    have haligned' := aligned_of_movesForward hforward haligned (List.replicate k .step)
    have hforward' : MovesForward (m.afterSteps k).text.words := by rwa [text_afterSteps]
    have hstep := pc_step_of_movesForward (attuned_afterSteps hattuned k) haligned' hforward'
      (hgoes k (Nat.lt_succ_self k))
    rw [afterSteps_succ]
    omega

/-- **A run through a program that moves forward** takes no more steps than there are words
ahead. -/
theorem ends_of_movesForward (hlimit : m.wordsAhead ≤ limit) :
    (∃ k, m.FinishesWithin limit k) ∨ ∃ k fault, m.FailsWithin limit k fault := by
  rcases run_cases m limit with hfinishes | hfails | ⟨hgoes, hrunning⟩
  · exact .inl hfinishes
  · exact .inr hfails
  · -- after that many steps the program counter would be past the end
    have hpc := pc_afterSteps_of_movesForward hattuned haligned hforward hgoes
    have hcontains :=
      TextSegment.contains_iff.mp ((attuned_afterSteps hattuned limit).mp hrunning)
    rw [text_afterSteps] at hcontains
    rw [wordsAhead_le_iff] at hlimit
    omega

theorem ends_within_size (h : m.text.size = limit) :
    (∃ k, m.FinishesWithin limit k) ∨ ∃ k fault, m.FailsWithin limit k fault := by
  cases hstatus : m.status with
  | finished => exact .inl ⟨0, finishesWithin_zero hstatus⟩
  | running =>
    have hcontains := TextSegment.contains_iff.mp (hattuned.mp hstatus)
    refine ends_of_movesForward hattuned haligned hforward (wordsAhead_le_iff.mpr ?_)
    omega

end

/-! ## Straight programs -/

/-- The number of faults among the first `k` steps. -/
def faultCount (m : Machine) (k : Nat) : Nat :=
  (List.range k).countP fun j => (m.afterSteps j).step.2.isSome

theorem faultCount_succ (m : Machine) (k : Nat) :
    m.faultCount (k + 1) =
      m.faultCount k + if (m.afterSteps k).step.2.isSome then 1 else 0 := by
  unfold faultCount
  rw [List.range_succ, List.countP_append, List.countP_singleton]

/-- While a machine is running, every step is either counted or a fault. -/
theorem steps_add_faultCount (hsteps : m.steps = 0)
    (hrunning : ∀ j < k, (m.afterSteps j).status = .running) :
    (m.afterSteps k).steps + m.faultCount k = k := by
  induction k with
  | zero => exact hsteps
  | succ k ih =>
    have hsum := ih fun j hj => hrunning j (Nat.lt_succ_of_lt hj)
    have hstep := (m.afterSteps k).steps_step.steps_eq
    rw [afterSteps_succ, faultCount_succ, hstep, hrunning k (Nat.lt_succ_self k)]
    cases (m.afterSteps k).step.2 <;> simp <;> omega

/-- Behind an instruction of a straight program a permissive machine goes on with the next
one, whether the instruction is carried out or skipped. -/
theorem Steps.toNat_pc_of_isStraight {m' : Machine} {fault? : Option Fault}
    (h : m.Steps m' fault?) (hattuned : m.Attuned) (hstraight : IsStraight m.text.words)
    (hrunning : m.status = .running) (hpermissive : m.config.permissive = true) :
    m'.pc.toNat = m.pc.toNat + 4 := by
  cases h with
  | idle hfinished => cases hrunning.symm.trans hfinished
  | carries _ hfetch hdecode _ hnext =>
    exact Architecture.pc_of_next hnext (hstraight _ (mem_words_of_fetch hfetch) _ hdecode)
  | unfetched | undecodable | denied => exact hattuned.toNat_pc_faulted hrunning hpermissive

theorem advances_of_isStraight (hattuned : m.Attuned) (hstraight : IsStraight m.text.words)
    (hpermissive : m.config.permissive = true) : m.Advances := by
  intro k hrunning
  have hstraight' : IsStraight (m.afterSteps k).text.words := by rwa [text_afterSteps]
  rw [afterSteps_succ]
  exact (m.afterSteps k).steps_step.toNat_pc_of_isStraight (attuned_afterSteps hattuned k)
    hstraight' hrunning ((permissive_afterSteps k).trans hpermissive)

/-! ## Programs that have been loaded -/

section
variable {program : Array Word} {config : Config} (hload : load program config = .ok m)
include hload

theorem size_of_load : m.text.size = program.size :=
  congrArg Array.size (words_of_load hload)

theorem toNat_pc_of_load : m.pc.toNat = 0x400000 := by
  rw [pc_of_load hload, toNat_textBase]

/-- At first every word of the program is ahead. -/
theorem wordsAhead_of_load : m.wordsAhead = program.size := by
  have hsize := size_of_load hload
  have hpc := toNat_pc_of_load hload
  apply Nat.le_antisymm
  · exact wordsAhead_le_iff.mpr (by omega)
  · have hend := wordsAhead_le_iff.mp (Nat.le_refl m.wordsAhead)
    omega

theorem movesForward_after (hforward : MovesForward program) (calls : List Call) :
    MovesForward (m.after calls).text.words := by
  rwa [text_after, words_of_load hload]

/-- Wherever steps and resets have led, the rest of the run is no longer than the program. -/
theorem ends_after (hforward : MovesForward program) (calls : List Call) :
    (∃ k, (m.after calls).FinishesWithin program.size k) ∨
      ∃ k fault, (m.after calls).FailsWithin program.size k fault := by
  have haligned := aligned_of_movesForward (movesForward_after hload hforward [])
    (aligned_of_load hload) calls
  refine ends_within_size (attuned_after (attuned_of_load hload) calls) haligned
    (movesForward_after hload hforward calls) ?_
  rw [text_after, size_of_load hload]

section
variable (hpermissive : config.permissive = true) (hstraight : IsStraight program)
include hpermissive hstraight

theorem advances_of_load : m.Advances := by
  have hmode := congrArg Config.permissive (config_of_load hload)
  refine advances_of_isStraight (attuned_of_load hload) ?_ (hmode.trans hpermissive)
  rwa [words_of_load hload]

/-- A straight program takes as many steps as it has words. -/
theorem finished_iff_size_le :
    (m.afterSteps k).status = .finished ↔ program.size ≤ k := by
  have hlow := Nat.le_of_eq (toNat_pc_of_load hload).symm
  rw [(advances_of_load hload hpermissive hstraight).finished_iff (attuned_of_load hload) hlow,
    wordsAhead_of_load hload]

theorem toNat_pc_of_le_size (hk : k ≤ program.size) :
    (m.afterSteps k).pc.toNat = 0x400000 + 4 * k := by
  have hlow := Nat.le_of_eq (toNat_pc_of_load hload).symm
  rw [← wordsAhead_of_load hload] at hk
  rw [(advances_of_load hload hpermissive hstraight).toNat_pc_afterSteps (attuned_of_load hload)
    hlow hk, toNat_pc_of_load hload]

/-- Up to the end of a straight program, whatever was not counted was a fault. -/
theorem steps_add_faultCount_of_le_size (hk : k ≤ program.size) :
    (m.afterSteps k).steps + m.faultCount k = k := by
  refine steps_add_faultCount (steps_of_load hload) fun j hj => ?_
  refine running_of_ne_finished fun hstatus => ?_
  have hend := (finished_iff_size_le hload hpermissive hstraight).mp hstatus
  omega

end
end

/-- **Programs that only move forward come to an end.**  Let every instruction of a program
lead to a higher address; words that are no instructions may stand in between.  After any
steps and resets, a permissive machine moves its program counter up with every step that it
takes while it is running, and it finishes within as many further steps as the program has
words.  A strict machine finishes or meets a fault within as many.

If no instruction leads elsewhere than to the next one, a permissive machine is in slot `k`
behind `k` steps, each of which was counted or met a fault, and it finishes with the last
word and not before. -/
theorem forward_programs_end {program : Array Word} {config : Config}
    (hload : load program config = .ok m) (hforward : MovesForward program) :
    (config.permissive = true → ∀ calls,
      ((m.after calls).status = .running →
        (m.after calls).pc.toNat < (m.after calls).step.1.pc.toNat) ∧
      ∃ k, (m.after calls).FinishesWithin program.size k) ∧
    (config.permissive = false → ∀ calls,
      (∃ k, (m.after calls).FinishesWithin program.size k) ∨
        ∃ k fault, (m.after calls).FailsWithin program.size k fault) ∧
    (config.permissive = true → IsStraight program →
      (∀ k ≤ program.size, (m.afterSteps k).pc.toNat = 0x400000 + 4 * k ∧
        (m.afterSteps k).steps + m.faultCount k = k) ∧
      ∀ k, (m.afterSteps k).status = .finished ↔ program.size ≤ k) := by
  refine ⟨?_, fun _ => ends_after hload hforward, ?_⟩
  · intro hpermissive calls
    have hmode : (m.after calls).config.permissive = true := by
      rw [config_after, config_of_load hload, hpermissive]
    constructor
    · intro hrunning
      have hattuned := attuned_after (attuned_of_load hload) calls
      refine (m.after calls).steps_step.lt_pc hattuned (movesForward_after hload hforward calls)
        hrunning fun hstrict => ?_
      cases hmode.symm.trans hstrict
    · rcases ends_after hload hforward calls with hfinishes | ⟨k, fault, hfails⟩
      · exact hfinishes
      · cases hmode.symm.trans hfails.strict
  · intro hpermissive hstraight
    constructor
    · intro k hk
      exact ⟨toNat_pc_of_le_size hload hpermissive hstraight hk,
        steps_add_faultCount_of_le_size hload hpermissive hstraight hk⟩
    · intro k
      exact finished_iff_size_le hload hpermissive hstraight

theorem forward_programs_end_past_faults :
    (∃ m, load #[0x10000001, 0xFC000000, 0x8FA80001, 0x08100004] { permissive := true } =
        .ok m ∧ ∃ k, m.FinishesWithin 4 k) ∧
    (∃ m, load #[0x10000001, 0xFC000000, 0x8FA80001, 0x08100004] {} = .ok m ∧
      ∃ k fault, m.FailsWithin 4 k fault) ∧
    ∃ m, load #[0x20080005, 0xFC000000, 0x8FA80001] { permissive := true } = .ok m ∧
      (m.afterSteps 2).status ≠ .finished ∧ (m.afterSteps 3).status = .finished ∧
      (m.afterSteps 3).pc.toNat = 0x40000C ∧ (m.afterSteps 3).steps = 1 ∧
      m.faultCount 3 = 2 := by
  have hbeq : decode 0x10000001 = .ok (.beq 0 0 1) := by decide
  have hjunk : decode 0xFC000000 = .error (.unknownOpCode 0x3F) := by decide
  have hlw : decode 0x8FA80001 = .ok (.lw 8 29 1) := by decide
  have hj : decode 0x08100004 = .ok (.j 0x100004) := by decide
  have haddi : decode 0x20080005 = .ok (.addi 8 0 5) := by decide
  have hforward : MovesForward #[0x10000001, 0xFC000000, 0x8FA80001, 0x08100004] := by
    intro slot w op hw hdecode
    match slot with
    | 0 =>
      cases hw
      cases hbeq.symm.trans hdecode
      exact (by decide : (0 : Int) ≤ 1)
    | 1 =>
      cases hw
      cases hjunk.symm.trans hdecode
    | 2 =>
      cases hw
      cases hlw.symm.trans hdecode
      trivial
    | 3 =>
      cases hw
      cases hj.symm.trans hdecode
      exact (by decide : textAddress 3 < jumpTarget (textAddress 3) 0x100004)
    | slot + 4 => cases hw
  have hstraight : IsStraight #[0x20080005, 0xFC000000, 0x8FA80001] := by
    intro w hw op hdecode
    simp only [List.mem_toArray, List.mem_cons, List.not_mem_nil, or_false] at hw
    rcases hw with rfl | rfl | rfl
    · cases haddi.symm.trans hdecode
      exact id
    · cases hjunk.symm.trans hdecode
    · cases hlw.symm.trans hdecode
      exact id
  refine ⟨?_, ?_, ?_⟩
  · have hloads : (load #[0x10000001, 0xFC000000, 0x8FA80001, 0x08100004]
        { permissive := true }).toOption.isSome = true := by decide +kernel
    obtain ⟨m, hload⟩ := Option.isSome_iff_exists.mp hloads
    rw [toOption_eq_some] at hload
    exact ⟨m, hload, (((forward_programs_end hload hforward).1 rfl) []).2⟩
  · have hrun : (load #[0x10000001, 0xFC000000, 0x8FA80001, 0x08100004] {}).toOption.map
        (fun m => (m.afterSteps 4).status) = some .running := by decide +kernel
    obtain ⟨m, hload, hrunning⟩ := Option.map_eq_some_iff.mp hrun
    rw [toOption_eq_some] at hload
    refine ⟨m, hload, ?_⟩
    rcases (forward_programs_end hload hforward).2.1 rfl [] with ⟨k, hfinishes⟩ | hfails
    · have hlast : m.afterSteps 4 = m.afterSteps k :=
        afterSteps_of_finished hfinishes.finished hfinishes.le
      rw [hlast] at hrunning
      cases hrunning.symm.trans hfinishes.finished
    · exact hfails
  · have hrun : (load #[0x20080005, 0xFC000000, 0x8FA80001]
        { permissive := true }).toOption.map (fun m => (m.afterSteps 3).steps) = some 1 := by
      decide +kernel
    obtain ⟨m, hload, hsteps⟩ := Option.map_eq_some_iff.mp hrun
    rw [toOption_eq_some] at hload
    obtain ⟨hcounts, hfinished⟩ :=
      (forward_programs_end hload hstraight.movesForward).2.2 rfl hstraight
    obtain ⟨hpc, hsum⟩ := hcounts 3 (Nat.le_refl 3)
    refine ⟨m, hload, ?_, (hfinished 3).mpr (Nat.le_refl 3), hpc, hsteps, by omega⟩
    rw [ne_eq, hfinished 2]
    decide

end Machine
end Mips
