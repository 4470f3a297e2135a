import Mips.Proofs.Machine.Atomicity

/-!
# Strict and permissive machines

Two machines that differ in their mode alone (`Machine.inMode`) cannot be told apart until
the first fault: what a step attempts does not depend on the mode, and a step that succeeds
does the same in both.  The first fault is the same on both sides, and so is everything
behind it but the program counter, which the permissive machine has moved by one
instruction, and the status that goes with it (`Machine.modes_agree_until_fault`).
-/
namespace Mips.Machine

variable {m m' : Machine} {fault : Fault}

/-- The machine in another mode. -/
def inMode (m : Machine) (permissive : Bool) : Machine :=
  { m with config := { m.config with permissive } }

/-- Whether a program can be loaded does not depend on the mode. -/
theorem load_inMode {program : Array Word} {config : Config} (h : load program config = .ok m)
    (permissive : Bool) :
    load program { config with permissive } = .ok (m.inMode permissive) := by
  obtain ⟨text, data, htext, hdata, rfl⟩ := load_eq_ok_iff.mp h
  exact load_eq_ok_iff.mpr ⟨text, data, htext, hdata, rfl⟩

theorem attempt_inMode (m : Machine) (permissive : Bool) :
    (m.inMode permissive).attempt = m.attempt :=
  rfl

/-- A step that succeeds does the same in both modes. -/
theorem step_inMode_of_ok (h : m.step = (m', none)) (permissive : Bool) :
    (m.inMode permissive).step = (m'.inMode permissive, none) := by
  cases hstatus : m.status with
  | finished =>
    have hfinished := isFinished_iff.mpr hstatus
    cases (step_of_isFinished hfinished).symm.trans h
    exact step_of_isFinished hfinished
  | running =>
    cases hattempt : m.attempt with
    | ok effect =>
      cases (step_of_attempt_ok hstatus hattempt).symm.trans h
      exact step_of_attempt_ok hstatus ((m.attempt_inMode permissive).trans hattempt)
    | error fault => cases (step_of_attempt_error hstatus hattempt).symm.trans h

/-- A step that fails does so with the same fault in both modes. -/
theorem step_inMode_of_fault (h : m.step = (m', some fault)) (permissive : Bool) :
    (m.inMode permissive).step = ((m.inMode permissive).faulted, some fault) := by
  cases hstatus : m.status with
  | finished => cases (step_of_isFinished (isFinished_iff.mpr hstatus)).symm.trans h
  | running =>
    cases hattempt : m.attempt with
    | ok effect => cases (step_of_attempt_ok hstatus hattempt).symm.trans h
    | error fault =>
      cases (step_of_attempt_error hstatus hattempt).symm.trans h
      exact step_of_attempt_error hstatus ((m.attempt_inMode permissive).trans hattempt)

/-- As long as the steps of a machine succeed, it makes no difference to take them in
another mode. -/
theorem afterSteps_inMode {k : Nat} (hok : m.Succeeds k) (permissive : Bool) :
    (m.inMode permissive).Succeeds k ∧
      ∀ j ≤ k, (m.inMode permissive).afterSteps j = (m.afterSteps j).inMode permissive := by
  refine lockstep (R := fun m m' => m' = m.inMode permissive) ?_ rfl hok
  rintro m _ rfl hnone
  rw [step_inMode_of_ok (Prod.ext rfl hnone) permissive]
  exact ⟨rfl, rfl⟩

/-- A running machine is not at the end of the address space. -/
theorem Attuned.pc_lt (h : m.Attuned) (hrunning : m.status = .running) :
    m.pc.toNat + 4 < 2 ^ 32 := by
  have hcontains := TextSegment.contains_iff.mp (h.mp hrunning)
  have hsize := m.text.size_le_maxCapacity
  omega

/-- **The modes agree until the first fault.**  If a program can be loaded, it can be loaded
in both modes.  As long as the steps of the strict machine succeed, so do those of the
permissive one, and the two machines stay the same but for their mode.  If the next step of
the strict machine meets a fault, that of the permissive machine meets the same; behind it
the two differ in the mode, in the program counter, which is four higher in permissive
mode, and in the status. -/
theorem modes_agree_until_fault {program : Array Word} {config : Config}
    (h : load program config = .ok m) :
    ∃ strict permissive,
      load program { config with permissive := false } = .ok strict ∧
      load program { config with permissive := true } = .ok permissive ∧
      ∀ k, strict.Succeeds k →
        permissive.Succeeds k ∧
        (∀ j ≤ k, permissive.afterSteps j = (strict.afterSteps j).inMode true) ∧
        ∀ fault, (strict.afterSteps k).step.2 = some fault →
          (permissive.afterSteps k).step.2 = some fault ∧
          (permissive.afterSteps (k + 1)).pc.toNat = (strict.afterSteps (k + 1)).pc.toNat + 4 ∧
          ∃ pc status, permissive.afterSteps (k + 1) =
            { (strict.afterSteps (k + 1)).inMode true with pc, status } := by
  refine ⟨m.inMode false, m.inMode true, load_inMode h false, load_inMode h true,
    fun k hok => ?_⟩
  obtain ⟨hok', hsame⟩ := afterSteps_inMode hok true
  refine ⟨hok', hsame, fun fault hfault => ?_⟩
  have hattuned : (m.inMode false).Attuned := attuned_of_load (load_inMode h false)
  have hstep : ((m.inMode false).afterSteps k).step = (_, some fault) := Prod.ext rfl hfault
  -- the strict machine stays on the instruction, the permissive one goes on behind it
  have hstays : (m.inMode false).afterSteps (k + 1) = (m.inMode false).afterSteps k :=
    afterSteps_of_fault hattuned rfl hfault
  have hskips : ((m.inMode true).afterSteps k).step =
      ((((m.inMode false).afterSteps k).inMode true).skipped.refreshed, some fault) :=
    (congrArg step (hsame k (Nat.le_refl k))).trans
      ((step_inMode_of_fault hstep true).trans
        (congrArg (·, some fault) (faulted_of_permissive rfl)))
  have hnext : (m.inMode true).afterSteps (k + 1) = _ :=
    (afterSteps_succ k).trans (congrArg Prod.fst hskips)
  have hrunning := running_of_fault hfault (Nat.le_refl k)
  rw [hnext, hstays]
  exact ⟨congrArg Prod.snd hskips,
    toNat_following ((attuned_after hattuned _).pc_lt hrunning), _, _, rfl⟩

theorem modes_agree_until_fault_at_a_load :
    ∃ strict permissive, load #[0x20080005, 0x8FA90001] {} = .ok strict ∧
      load #[0x20080005, 0x8FA90001] { permissive := true } = .ok permissive ∧
      strict.Succeeds 1 ∧ permissive.afterSteps 1 = (strict.afterSteps 1).inMode true ∧
      (permissive.afterSteps 1).step.2 = some (.access (.misaligned .data 0xFFFFFFFE)) ∧
      (permissive.afterSteps 2).pc.toNat = (strict.afterSteps 2).pc.toNat + 4 := by
  have hrun : (load #[0x20080005, 0x8FA90001] {}).toOption.map (fun m =>
      (m.step.2, (m.afterSteps 1).step.2)) =
        some (none, some (.access (.misaligned .data 0xFFFFFFFE))) := by
    decide +kernel
  obtain ⟨m, hload, hfaults⟩ := Option.map_eq_some_iff.mp hrun
  rw [toOption_eq_some] at hload
  obtain ⟨hfirst, hsecond⟩ := Prod.mk.inj hfaults
  obtain ⟨strict, permissive, hstrict, hpermissive, hagree⟩ := modes_agree_until_fault hload
  cases hload.symm.trans hstrict
  have hok : m.Succeeds 1 := by
    intro j hj
    obtain rfl : j = 0 := by omega
    exact hfirst
  obtain ⟨-, hsame, hfault⟩ := hagree 1 hok
  obtain ⟨hfault', hpc, -⟩ := hfault _ hsecond
  exact ⟨m, permissive, hload, hpermissive, hok, hsame 1 (Nat.le_refl 1), hfault', hpc⟩

end Mips.Machine
