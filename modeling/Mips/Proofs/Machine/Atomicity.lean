import Mips.Proofs.Machine.Actions
import Mips.Proofs.Machine.Faults
import Mips.Proofs.Machine.Runs

/-!
# Faults are atomic

An operation that fails changes nothing, although it is made of several actions of which
only one fails (`Machine.perform_eq_execute`).  For a step this means that a fault leaves
a strict machine as it was, its status included because the status was up to date before;
the machine is then stuck and meets the same fault again at every further step.  A
permissive machine moves on by one instruction and nothing else happens to it
(`Machine.faults_atomic`).
-/
namespace Mips.Machine

variable {m m' : Machine} {fault : Fault}

theorem execute_of_fault {op : Operation} (h : m.execute op = (m', some fault)) : m' = m := by
  unfold execute at h
  cases heffect : m.effect op with
  | ok effect =>
    rw [heffect] at h
    cases h
  | error fault =>
    rw [heffect] at h
    exact (congrArg Prod.fst h).symm

theorem Steps.eq_faulted (h : m.Steps m' (some fault)) : m' = m.faulted := by
  cases h with
  | unfetched | undecodable | denied => rfl

/-- A strict machine stays as it is on a fault. -/
theorem faulted_of_strict (hattuned : m.Attuned) (hstrict : m.config.permissive = false) :
    m.faulted = m := by
  unfold faulted
  rw [hstrict]
  exact hattuned.refreshed_eq

/-- A permissive machine goes on behind the instruction that has failed. -/
theorem faulted_of_permissive (h : m.config.permissive = true) :
    m.faulted = m.skipped.refreshed := by
  unfold faulted
  rw [if_pos h]

/-- A strict machine never gets past a fault. -/
theorem stuck_of_strict (hattuned : m.Attuned) (hstrict : m.config.permissive = false)
    (hstep : m.step = (m', some fault)) : m' = m ∧ ∀ n,
      m.after (List.replicate n .step) = m ∧
        (m.after (List.replicate n .step)).step = (m, some fault) := by
  have hsame : m' = m := (steps_of_step hstep).eq_faulted.trans (faulted_of_strict hattuned hstrict)
  subst hsame
  refine ⟨rfl, fun n => ?_⟩
  have hstays := after_replicate_step hstep n
  exact ⟨hstays, by rwa [hstays]⟩

/-- A run of a strict machine stays where it meets a fault. -/
theorem afterSteps_of_fault {k : Nat} (hattuned : m.Attuned)
    (hstrict : m.config.permissive = false) (hfault : (m.afterSteps k).step.2 = some fault) :
    m.afterSteps (k + 1) = m.afterSteps k := by
  have hstep : (m.afterSteps k).step = (_, some fault) := Prod.ext rfl hfault
  rw [afterSteps_succ]
  exact (stuck_of_strict (attuned_after hattuned _) ((permissive_afterSteps k).trans hstrict)
    hstep).1

/-- What a fault does to a permissive machine. -/
theorem skips_of_permissive (hpermissive : m.config.permissive = true)
    (hstep : m.step = (m', some fault)) :
    m' = { m with pc := m'.pc, status := m'.status } ∧
      m'.pc.toNat = (m.pc.toNat + 4) % 2 ^ 32 ∧
      (m'.status = .running ↔ 0x400000 ≤ m'.pc.toNat ∧
        m'.pc.toNat < 0x400000 + 4 * m.text.size) := by
  have hskips : m' = m.skipped.refreshed :=
    (steps_of_step hstep).eq_faulted.trans (faulted_of_permissive hpermissive)
  subst hskips
  exact ⟨rfl, UInt32.toNat_add _ _, (attuned_refreshed _).trans TextSegment.contains_iff⟩

/-- **Faults are atomic, and permanent in strict mode.**  An operation that meets a fault
leaves the machine as it was, also when its actions are taken one by one.  A step that
meets a fault, after whatever steps and resets, leaves a strict machine as it was, so that
every further step meets the same fault and changes nothing either; in a permissive
machine it moves the program counter by one instruction, brings the status in line with
that, and does nothing else. -/
theorem faults_atomic (config : Config) :
    (∀ m op m' fault, execute m op = (m', some fault) →
      m' = m ∧ perform m op = (m, some fault)) ∧
    ∀ program m, load program config = .ok m →
      ∀ calls m' fault, (m.after calls).step = (m', some fault) →
        (config.permissive = false → m' = m.after calls ∧
          ∀ n, m.after (calls ++ List.replicate n .step) = m.after calls ∧
            (m.after (calls ++ List.replicate n .step)).step = (m.after calls, some fault)) ∧
        (config.permissive = true →
          m' = { m.after calls with pc := m'.pc, status := m'.status } ∧
            m'.pc.toNat = ((m.after calls).pc.toNat + 4) % 2 ^ 32 ∧
            (m'.status = .running ↔ 0x400000 ≤ m'.pc.toNat ∧
              m'.pc.toNat < 0x400000 + 4 * program.size)) := by
  constructor
  · intro m op m' fault h
    have hsame := execute_of_fault h
    subst hsame
    exact ⟨rfl, (perform_eq_execute m' op).trans h⟩
  · intro program m hload calls m' fault hstep
    have hconfig : (m.after calls).config = config := by
      obtain ⟨text, data, -, -, rfl⟩ := load_eq_ok_iff.mp hload
      exact config_after calls
    constructor
    · intro hstrict
      simp only [after_append]
      exact stuck_of_strict (attuned_after (attuned_of_load hload) calls)
        ((congrArg Config.permissive hconfig).trans hstrict) hstep
    · intro hpermissive
      have htext : (m.after calls).text.size = program.size := by
        rw [text_after, TextSegment.size, words_of_load hload]
      rw [← htext]
      exact skips_of_permissive ((congrArg Config.permissive hconfig).trans hpermissive) hstep

theorem faults_atomic_of_bad_loads :
    (∃ m, load #[0x8FA80001] {} = .ok m ∧ m.perform (.lw 32 29 0) = (m, some (.noRegister 32)) ∧
      ∀ n, (m.after (.reset :: List.replicate n .step)).step =
        (m.after [.reset], some (.access (.misaligned .data 0xFFFFFFFE)))) ∧
    ∃ m m', load #[0x8FA80001] { permissive := true } = .ok m ∧
      m.step = (m', some (.access (.misaligned .data 0xFFFFFFFE))) ∧
      m' = { m with pc := m'.pc, status := m'.status } ∧ m'.pc.toNat = 0x400004 := by
  constructor
  · have hrun : (load #[0x8FA80001] {}).toOption.map (fun m =>
        ((m.execute (.lw 32 29 0)).2, (m.after [.reset]).step.2)) =
          some (some (.noRegister 32), some (.access (.misaligned .data 0xFFFFFFFE))) := by
      decide +kernel
    obtain ⟨m, hload, hfaults⟩ := Option.map_eq_some_iff.mp hrun
    rw [toOption_eq_some] at hload
    obtain ⟨hlw, hfetched⟩ := Prod.mk.inj hfaults
    cases hexecute : m.execute (.lw 32 29 0) with
    | mk m₁ fault₁ =>
      cases hstep : (m.after [.reset]).step with
      | mk m₂ fault₂ =>
        rw [hexecute] at hlw
        rw [hstep] at hfetched
        cases hlw
        cases hfetched
        have hstuck := ((faults_atomic {}).2 _ _ hload _ _ _ hstep).1 rfl
        exact ⟨m, hload, ((faults_atomic {}).1 _ _ _ _ hexecute).2, fun n => (hstuck.2 n).2⟩
  · have hrun : (load #[0x8FA80001] { permissive := true }).toOption.map (fun m =>
        (m.step.2, m.pc.toNat)) =
          some (some (.access (.misaligned .data 0xFFFFFFFE)), 0x400000) := by
      decide +kernel
    obtain ⟨m, hload, h⟩ := Option.map_eq_some_iff.mp hrun
    rw [toOption_eq_some] at hload
    obtain ⟨hfault, hpc⟩ := Prod.mk.inj h
    cases hstep : m.step with
    | mk m' fault =>
      rw [hstep] at hfault
      cases hfault
      have hskips := ((faults_atomic { permissive := true }).2 _ _ hload [] _ _ hstep).2 rfl
      refine ⟨m, m', hload, hstep, hskips.1, hskips.2.1.trans ?_⟩
      rw [after_nil, hpc]
      rfl

end Mips.Machine
