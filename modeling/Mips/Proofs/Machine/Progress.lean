import Mathlib.Algebra.Order.Floor.Div
import Mips.Proofs.Machine.Invariant
import Mips.Proofs.Machine.Modes

/-!
# Progress through a program

How long it takes a machine to leave its program can be read off its program counter if
every step moves the counter by one instruction (`Machine.Advances`): it takes as many steps
as there are words ahead, of which the first may be a part of one
(`Machine.Advances.finished_iff`).

A machine whose program counter lies between two words is of that kind in permissive mode.
It lies within its program as far as its status is concerned, but no word can be fetched
there, and skipping what cannot be fetched leads between two words again.  So nothing is
executed any more until a reset (`Machine.misaligned_counter_is_a_dead_end`).
-/
namespace Mips.Machine

variable {m m' : Machine} {k : Nat}

/-- The number of words from the program counter to the end of the program, a part of a
word included. -/
def wordsAhead (m : Machine) : Nat :=
  (m.text.endAddress.toNat - m.pc.toNat) ⌈/⌉ 4

theorem wordsAhead_le_iff :
    m.wordsAhead ≤ k ↔ 0x400000 + 4 * m.text.size ≤ m.pc.toNat + 4 * k := by
  unfold wordsAhead
  rw [ceilDiv_le_iff_le_mul (by decide), m.text.toNat_endAddress]
  omega

/-! ## Machines that move on by one instruction -/

/-- Every step of the machine moves its program counter to the next instruction as long as
the machine is running. -/
def Advances (m : Machine) : Prop :=
  ∀ k, (m.afterSteps k).status = .running →
    (m.afterSteps (k + 1)).pc.toNat = (m.afterSteps k).pc.toNat + 4

/-- A fault moves a permissive machine to the next instruction. -/
theorem Attuned.toNat_pc_faulted (h : m.Attuned) (hrunning : m.status = .running)
    (hpermissive : m.config.permissive = true) :
    m.faulted.pc.toNat = m.pc.toNat + 4 := by
  rw [faulted_of_permissive hpermissive]
  exact toNat_following (h.pc_lt hrunning)

section
variable (hattuned : m.Attuned) (hlow : 0x400000 ≤ m.pc.toNat)
include hattuned hlow

/-- A machine is running while it has words ahead. -/
theorem running_of_lt_wordsAhead (hk : k < m.wordsAhead)
    (hpc : (m.afterSteps k).pc.toNat = m.pc.toNat + 4 * k) :
    (m.afterSteps k).status = .running := by
  have hnot : ¬ m.wordsAhead ≤ k := Nat.not_le.mpr hk
  rw [wordsAhead_le_iff] at hnot
  have hcontains : (m.afterSteps k).text.contains (m.afterSteps k).pc = true := by
    rw [TextSegment.contains_iff, hpc, text_afterSteps]
    omega
  exact (attuned_afterSteps hattuned k).mpr hcontains

theorem Advances.toNat_pc_afterSteps (h : m.Advances) (hk : k ≤ m.wordsAhead) :
    (m.afterSteps k).pc.toNat = m.pc.toNat + 4 * k := by
  induction k with
  | zero => rfl
  | succ k ih =>
    have hpc := ih (Nat.le_of_succ_le hk)
    have hrunning := running_of_lt_wordsAhead hattuned hlow hk hpc
    rw [h k hrunning, hpc]
    omega

/-- **A machine that moves on by one instruction at a time** finishes with the last word
that it had ahead. -/
theorem Advances.finished_iff (h : m.Advances) :
    (m.afterSteps k).status = .finished ↔ m.wordsAhead ≤ k := by
  constructor
  · intro hfinished
    by_contra hlt
    have hpc := h.toNat_pc_afterSteps hattuned hlow (Nat.le_of_not_le hlt)
    have hrunning := running_of_lt_wordsAhead hattuned hlow (Nat.lt_of_not_le hlt) hpc
    cases hrunning.symm.trans hfinished
  · intro hle
    have hpc := h.toNat_pc_afterSteps hattuned hlow (Nat.le_refl m.wordsAhead)
    have hend := wordsAhead_le_iff.mp (Nat.le_refl m.wordsAhead)
    have hfinished : (m.afterSteps m.wordsAhead).status = .finished := by
      rw [(attuned_afterSteps hattuned _).finished_iff_not_contains, TextSegment.contains_iff,
        hpc, text_afterSteps]
      omega
    rw [afterSteps_of_finished hfinished hle]
    exact hfinished

end

/-! ## Between two words -/

/-- Between two words a running machine can only fail, and the fault is always the same. -/
theorem Steps.of_misaligned {fault? : Option Fault} (h : m.Steps m' fault?)
    (hattuned : m.Attuned) (hpc : ¬ 4 ∣ m.pc.toNat) :
    m.status = .finished ∧ m' = m ∧ fault? = none ∨
      m.status = .running ∧ m' = m.faulted ∧
        fault? = some (.access (.misaligned .text m.pc)) := by
  have hunfetched : ∀ w, m.fetch ≠ .ok w := by
    intro w hfetch
    obtain ⟨i, -, hslot⟩ := fetch_eq_ok_iff.mp hfetch
    omega
  cases h with
  | idle hstatus => exact .inl ⟨hstatus, rfl, rfl⟩
  | carries _ hfetch | undecodable _ hfetch | denied _ hfetch =>
    exact absurd hfetch (hunfetched _)
  | unfetched hstatus hread =>
    rcases TextSegment.read_of_contains (hattuned.mp hstatus) with
      ⟨-, hread'⟩ | ⟨i, _, -, hslot, -⟩
    · cases hread.symm.trans hread'
      exact .inr ⟨hstatus, rfl, rfl⟩
    · omega

theorem fault_of_misaligned (hattuned : m.Attuned) (hpc : ¬ 4 ∣ m.pc.toNat)
    (hrunning : m.status = .running) :
    m.step = (m.faulted, some (.access (.misaligned .text m.pc))) := by
  rcases m.steps_step.of_misaligned hattuned hpc with ⟨hfinished, -⟩ | ⟨-, hnext, hfault⟩
  · cases hrunning.symm.trans hfinished
  · exact Prod.ext hnext hfault

/-- Once between two words, a machine stays there, and nothing is executed. -/
theorem misaligned_afterSteps (hattuned : m.Attuned) (hpc : ¬ 4 ∣ m.pc.toNat) (k : Nat) :
    ¬ 4 ∣ (m.afterSteps k).pc.toNat ∧ m.afterSteps k =
      { m with pc := (m.afterSteps k).pc, status := (m.afterSteps k).status } := by
  induction k with
  | zero => exact ⟨hpc, rfl⟩
  | succ k ih =>
    obtain ⟨hpc', hsame⟩ := ih
    rw [afterSteps_succ]
    rcases (m.afterSteps k).steps_step.of_misaligned (attuned_afterSteps hattuned k) hpc' with
      ⟨-, hnext, -⟩ | ⟨-, hnext, -⟩
    · rw [hnext]
      exact ⟨hpc', hsame⟩
    · have hmod := toNat_pc_faulted_mod (m.afterSteps k)
      rw [hnext]
      refine ⟨by omega, ?_⟩
      rw [faulted_eq]
      generalize (m.afterSteps k).faulted.pc = pc
      generalize (m.afterSteps k).faulted.status = status
      rw [hsame]

/-- In permissive mode a machine between two words skips one place after another. -/
theorem advances_of_misaligned (hattuned : m.Attuned) (hpc : ¬ 4 ∣ m.pc.toNat)
    (hpermissive : m.config.permissive = true) : m.Advances := by
  intro k hrunning
  have hattuned' := attuned_afterSteps hattuned k
  have hfault := fault_of_misaligned hattuned' (misaligned_afterSteps hattuned hpc k).1 hrunning
  rw [afterSteps_succ, hfault]
  exact hattuned'.toNat_pc_faulted hrunning ((permissive_afterSteps k).trans hpermissive)

/-- **A misaligned program counter is a dead end.**  Let a machine, after any steps and
resets, be running with its program counter between two words.  Whatever the number of
further steps, each one that it takes while it is running reports that the program counter
is misaligned, and none of them changes anything but the program counter and the status.  A
strict machine stays as it is for good.  A permissive one moves on by one instruction with
every step, finishes with the last word ahead of it, and does nothing from then on. -/
theorem misaligned_counter_is_a_dead_end {program : Array Word} {config : Config}
    {loaded : Machine} (hload : load program config = .ok loaded) {calls : List Call}
    (hreach : loaded.after calls = m) (hrunning : m.status = .running)
    (hpc : ¬ 4 ∣ m.pc.toNat) :
    (∀ k, (m.afterSteps k).status = .running →
      (m.afterSteps k).step.2 = some (.access (.misaligned .text (m.afterSteps k).pc))) ∧
    (∀ k, m.afterSteps k =
      { m with pc := (m.afterSteps k).pc, status := (m.afterSteps k).status }) ∧
    (config.permissive = false → ∀ k, m.afterSteps k = m) ∧
    (config.permissive = true →
      m.wordsAhead = (0x400000 + 4 * program.size - m.pc.toNat) ⌈/⌉ 4 ∧
      (∀ k ≤ m.wordsAhead, (m.afterSteps k).pc.toNat = m.pc.toNat + 4 * k) ∧
      (∀ k, (m.afterSteps k).status = .finished ↔ m.wordsAhead ≤ k) ∧
      ∀ k, m.wordsAhead ≤ k → (m.afterSteps k).step = (m.afterSteps m.wordsAhead, none)) := by
  subst hreach
  have hattuned := attuned_after (attuned_of_load hload) calls
  have hconfig : (loaded.after calls).config = config :=
    (config_after calls).trans (config_of_load hload)
  have hsize : (loaded.after calls).text.size = program.size := by
    rw [text_after, TextSegment.size, words_of_load hload]
  have hfault := fault_of_misaligned hattuned hpc hrunning
  refine ⟨?_, ?_, ?_, ?_⟩
  · intro k hrunning'
    exact congrArg Prod.snd (fault_of_misaligned (attuned_afterSteps hattuned k)
      (misaligned_afterSteps hattuned hpc k).1 hrunning')
  · intro k
    exact (misaligned_afterSteps hattuned hpc k).2
  · intro hstrict k
    exact ((stuck_of_strict hattuned (hconfig ▸ hstrict) hfault).2 k).1
  · intro hpermissive
    have hlow := (TextSegment.contains_iff.mp (hattuned.mp hrunning)).1
    have hadvances := advances_of_misaligned hattuned hpc (hconfig ▸ hpermissive)
    refine ⟨?_, ?_, ?_, ?_⟩
    · rw [wordsAhead, TextSegment.toNat_endAddress, hsize]
    · intro k hk
      exact hadvances.toNat_pc_afterSteps hattuned hlow hk
    · intro k
      exact hadvances.finished_iff hattuned hlow
    · intro k hk
      have hfinished := (hadvances.finished_iff hattuned hlow).mpr hk
      have hend := (hadvances.finished_iff hattuned hlow).mpr (Nat.le_refl _)
      rw [step_of_isFinished (isFinished_iff.mpr hfinished), afterSteps_of_finished hend hk]

theorem misaligned_counter_is_a_dead_end_behind_a_jump :
    ∃ loaded m, load #[0x20080040, 0x00084400, 0x21080002, 0x01000008] { permissive := true } =
        .ok loaded ∧
      loaded.after [.step, .step, .step, .step] = m ∧ m.pc.toNat = 0x400002 ∧
      m.step.2 = some (.access (.misaligned .text 0x400002)) ∧
      (m.afterSteps 3).pc.toNat = 0x40000E ∧ (m.afterSteps 3).status ≠ .finished ∧
      (m.afterSteps 4).status = .finished ∧ (m.afterSteps 4).steps = 4 := by
  have hrun : (load #[0x20080040, 0x00084400, 0x21080002, 0x01000008]
      { permissive := true }).toOption.map (fun loaded =>
        ((loaded.after [.step, .step, .step, .step]).status,
          (loaded.after [.step, .step, .step, .step]).pc,
          (loaded.after [.step, .step, .step, .step]).steps)) =
        some (.running, 0x400002, 4) := by
    decide +kernel
  obtain ⟨loaded, hload, h⟩ := Option.map_eq_some_iff.mp hrun
  rw [toOption_eq_some] at hload
  generalize hreach : loaded.after [.step, .step, .step, .step] = m at h
  obtain ⟨hrunning, h⟩ := Prod.mk.inj h
  obtain ⟨hpc, hsteps⟩ := Prod.mk.inj h
  have hnat : m.pc.toNat = 0x400002 := congrArg UInt32.toNat hpc
  obtain ⟨hfaults, hsame, -, hpermissive⟩ :=
    misaligned_counter_is_a_dead_end hload hreach hrunning (by rw [hnat]; decide)
  obtain ⟨hahead, hcounter, hfinished, -⟩ := hpermissive rfl
  have hfour : m.wordsAhead = 4 := by
    rw [hahead, hnat]
    rfl
  rw [hfour] at hcounter hfinished
  refine ⟨loaded, m, hload, hreach, hnat, ?_, ?_, ?_, (hfinished 4).mpr (Nat.le_refl 4), ?_⟩
  · exact (hfaults 0 hrunning).trans (by rw [afterSteps_zero, hpc])
  · exact (hcounter 3 (by decide)).trans (by rw [hnat])
  · rw [ne_eq, hfinished]
    decide
  · rw [hsame 4]
    exact hsteps

end Mips.Machine
