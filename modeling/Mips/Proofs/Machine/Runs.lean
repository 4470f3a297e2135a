import Mips.Machine.Run
import Mips.Proofs.Machine.History

/-!
# Runs

A run is a number of steps in a row (`Machine.afterSteps`).  Two facts about runs are
used wherever a machine is left to itself.

Two machines whose steps keep a relation between them run in lockstep: as long as the
steps of the one succeed, so do those of the other (`Machine.lockstep`).

A run with a limit on its steps ends in one of three ways: the machine finishes, a
strict machine meets a fault, or the limit cuts it off while it would still go on
(`Machine.run_cases`).  Each of the three fixes what `Machine.complete` answers.
-/
namespace Mips.Machine

variable {m m' : Machine} {fault : Fault} {k limit : Nat}

/-- The machine after `n` steps. -/
def afterSteps (m : Machine) (n : Nat) : Machine :=
  m.after (List.replicate n .step)

@[simp] theorem afterSteps_zero : m.afterSteps 0 = m := rfl

theorem afterSteps_succ (n : Nat) : m.afterSteps (n + 1) = (m.afterSteps n).step.1 := by
  unfold afterSteps
  rw [List.replicate_succ', after_concat]
  rfl

theorem afterSteps_add (n n' : Nat) : m.afterSteps (n + n') = (m.afterSteps n).afterSteps n' := by
  unfold afterSteps
  rw [List.replicate_add, after_append]

theorem config_afterSteps (n : Nat) : (m.afterSteps n).config = m.config :=
  config_after _

theorem permissive_afterSteps (n : Nat) :
    (m.afterSteps n).config.permissive = m.config.permissive :=
  congrArg Config.permissive (config_afterSteps n)

theorem text_afterSteps (n : Nat) : (m.afterSteps n).text = m.text :=
  text_after _

theorem attuned_afterSteps (h : m.Attuned) (n : Nat) : (m.afterSteps n).Attuned :=
  attuned_after h _

/-- A finished machine stays as it is. -/
theorem afterSteps_of_finished (h : (m.afterSteps k).status = .finished) {n : Nat}
    (hn : k ≤ n) : m.afterSteps n = m.afterSteps k := by
  obtain ⟨d, rfl⟩ := Nat.exists_eq_add_of_le hn
  rw [afterSteps_add]
  exact after_replicate_step (step_of_isFinished (isFinished_iff.mpr h)) d

theorem running_of_ne_finished (h : m.status ≠ .finished) : m.status = .running := by
  cases hstatus : m.status with
  | running => rfl
  | finished => exact absurd hstatus h

/-- A machine that meets a fault has been running all the time. -/
theorem running_of_fault (h : (m.afterSteps k).step.2 = some fault) {j : Nat} (hj : j ≤ k) :
    (m.afterSteps j).status = .running := by
  refine running_of_ne_finished fun hstatus => ?_
  rw [afterSteps_of_finished hstatus hj, step_of_isFinished (isFinished_iff.mpr hstatus)] at h
  cases h

theorem not_isFinished_of_running (h : m.status = .running) : ¬ m.isFinished = true := by
  rw [isFinished_iff, h]
  nofun

/-! ## Lockstep -/

/-- The first `k` steps all succeed. -/
def Succeeds (m : Machine) (k : Nat) : Prop :=
  ∀ j < k, (m.afterSteps j).step.2 = none

/-- **Machines in lockstep.**  If a successful step on the one side comes with a
successful step on the other and the two machines stay related, then so it is with any
number of steps. -/
theorem lockstep {R : Machine → Machine → Prop}
    (hstep : ∀ m m', R m m' → m.step.2 = none → m'.step.2 = none ∧ R m.step.1 m'.step.1)
    (h : R m m') (hok : m.Succeeds k) :
    m'.Succeeds k ∧ ∀ j ≤ k, R (m.afterSteps j) (m'.afterSteps j) := by
  have hrelated : ∀ j ≤ k, R (m.afterSteps j) (m'.afterSteps j) := by
    intro j hj
    induction j with
    | zero => exact h
    | succ j ih =>
      rw [afterSteps_succ, afterSteps_succ]
      exact (hstep _ _ (ih (by omega)) (hok j (by omega))).2
  exact ⟨fun j hj => (hstep _ _ (hrelated j (by omega)) (hok j hj)).1, hrelated⟩

/-! ## Runs with a limit -/

/-- A run goes on behind the next step: there is a step to take, and a strict machine
does not fail at it. -/
def GoesOn (m : Machine) : Prop :=
  m.status = .running ∧ (m.config.permissive = false → m.step.2 = none)

/-- The machine finishes after `k` steps and not before, within the limit, and in strict
mode without a fault. -/
structure FinishesWithin (m : Machine) (limit k : Nat) : Prop where
  le : k ≤ limit
  finished : (m.afterSteps k).status = .finished
  first : ∀ j < k, (m.afterSteps j).status ≠ .finished
  clean : m.config.permissive = false → m.Succeeds k

/-- The machine is strict, and its first fault comes behind `k` steps, within the
limit. -/
structure FailsWithin (m : Machine) (limit k : Nat) (fault : Fault) : Prop where
  strict : m.config.permissive = false
  lt : k < limit
  first : m.Succeeds k
  fault : (m.afterSteps k).step.2 = some fault

/-- Only a fault keeps a run from going on while there are steps to take, and only in strict
mode. -/
theorem exists_fault_of_not_goesOn (hrunning : m.status = .running) (h : ¬ m.GoesOn) :
    m.config.permissive = false ∧ ∃ fault, m.step.2 = some fault := by
  have hstops : ¬ (m.config.permissive = false → m.step.2 = none) := fun hc => h ⟨hrunning, hc⟩
  rw [Classical.not_imp] at hstops
  exact ⟨hstops.1, Option.ne_none_iff_exists'.mp hstops.2⟩

theorem FinishesWithin.goesOn (h : m.FinishesWithin limit k) {j : Nat} (hj : j < k) :
    (m.afterSteps j).GoesOn := by
  constructor
  · exact running_of_ne_finished (h.first j hj)
  · rw [permissive_afterSteps]
    exact fun hstrict => h.clean hstrict j hj

theorem FailsWithin.goesOn (h : m.FailsWithin limit k fault) {j : Nat} (hj : j < k) :
    (m.afterSteps j).GoesOn :=
  ⟨running_of_fault h.fault (Nat.le_of_lt hj), fun _ => h.first j hj⟩

/-- In strict mode a run that goes on has met no fault. -/
theorem succeeds_of_goesOn (hstrict : m.config.permissive = false)
    (h : ∀ j < k, (m.afterSteps j).GoesOn) : m.Succeeds k :=
  fun j hj => (h j hj).2 ((permissive_afterSteps j).trans hstrict)

theorem finishesWithin_of_goesOn (hle : k ≤ limit) (h : ∀ j < k, (m.afterSteps j).GoesOn)
    (hfinished : (m.afterSteps k).status = .finished) : m.FinishesWithin limit k where
  le := hle
  finished := hfinished
  first j hj := by
    rw [(h j hj).1]
    nofun
  clean hstrict := succeeds_of_goesOn hstrict h

theorem finishesWithin_zero (h : m.status = .finished) : m.FinishesWithin limit 0 :=
  finishesWithin_of_goesOn (Nat.zero_le _) (fun j hj => absurd hj (Nat.not_lt_zero j)) h

/-- **How a run with a limit ends**: the machine finishes, or a strict one meets a fault,
or the run still goes on when it reaches the limit. -/
theorem run_cases (m : Machine) (limit : Nat) :
    (∃ k, m.FinishesWithin limit k) ∨ (∃ k fault, m.FailsWithin limit k fault) ∨
      (∀ j < limit, (m.afterSteps j).GoesOn) ∧ (m.afterSteps limit).status = .running := by
  induction limit with
  | zero =>
    cases hstatus : m.status with
    | finished => exact .inl ⟨0, finishesWithin_zero hstatus⟩
    | running => exact .inr (.inr ⟨fun j hj => absurd hj (Nat.not_lt_zero j), hstatus⟩)
  | succ limit ih =>
    rcases ih with ⟨k, hk⟩ | ⟨k, fault, hk⟩ | ⟨hgoes, hrunning⟩
    · exact .inl ⟨k, { hk with le := Nat.le_succ_of_le hk.le }⟩
    · exact .inr (.inl ⟨k, fault, { hk with lt := Nat.lt_succ_of_lt hk.lt }⟩)
    · by_cases hlast : (m.afterSteps limit).GoesOn
      · have hgoes' : ∀ j < limit + 1, (m.afterSteps j).GoesOn := by
          intro j hj
          rcases Nat.lt_succ_iff_lt_or_eq.mp hj with hlt | rfl
          · exact hgoes j hlt
          · exact hlast
        cases hstatus : (m.afterSteps (limit + 1)).status with
        | finished =>
          exact .inl ⟨limit + 1, finishesWithin_of_goesOn (Nat.le_refl _) hgoes' hstatus⟩
        | running => exact .inr (.inr ⟨hgoes', rfl⟩)
      · obtain ⟨hstrict, fault, hfault⟩ := exists_fault_of_not_goesOn hrunning hlast
        rw [permissive_afterSteps] at hstrict
        exact .inr (.inl ⟨limit, fault, hstrict, Nat.lt_succ_self limit,
          succeeds_of_goesOn hstrict hgoes, hfault⟩)

/-! ## Completion -/

theorem complete_of_finished (h : m.status = .finished) (limit : Nat) :
    complete limit m = .finished m := by
  have hfinished := isFinished_iff.mpr h
  cases limit with
  | zero => exact if_pos hfinished
  | succ limit => exact if_pos hfinished

theorem complete_of_goesOn (h : m.GoesOn) (limit : Nat) :
    complete (limit + 1) m = complete limit m.step.1 := by
  obtain ⟨hrunning, hstrict⟩ := h
  rw [complete, if_neg (not_isFinished_of_running hrunning)]
  cases hstep : m.step with
  | mk m' fault? =>
    cases fault? with
    | none => rfl
    | some fault =>
      -- a fault does not end the run of a permissive machine
      have hpermissive : m.config.permissive = true := by
        cases hmode : m.config.permissive with
        | true => rfl
        | false =>
          have hnone := hstrict hmode
          rw [hstep] at hnone
          cases hnone
      have hsame : m'.config.permissive = true :=
        (congrArg Config.permissive (steps_of_step hstep).config_eq).trans hpermissive
      exact if_pos hsame

theorem complete_of_fault (hrunning : m.status = .running)
    (hstrict : m.config.permissive = false) (hfault : m.step.2 = some fault) (limit : Nat) :
    complete (limit + 1) m = .failed m.step.1 fault := by
  rw [complete, if_neg (not_isFinished_of_running hrunning)]
  cases hstep : m.step with
  | mk m' fault? =>
    rw [hstep] at hfault
    cases hfault
    have hsame : m'.config.permissive = false :=
      (congrArg Config.permissive (steps_of_step hstep).config_eq).trans hstrict
    exact if_neg (by rw [hsame]; nofun)

/-- While a run goes on, its steps are simply taken. -/
theorem complete_add (h : ∀ j < k, (m.afterSteps j).GoesOn) (limit : Nat) :
    complete (k + limit) m = complete limit (m.afterSteps k) := by
  induction k generalizing limit with
  | zero => rw [Nat.zero_add, afterSteps_zero]
  | succ k ih =>
    rw [Nat.add_right_comm, Nat.add_assoc, ih (fun j hj => h j (by omega)),
      complete_of_goesOn (h k (by omega)), afterSteps_succ]

theorem FinishesWithin.complete_eq (h : m.FinishesWithin limit k) :
    complete limit m = .finished (m.afterSteps k) := by
  obtain ⟨rest, rfl⟩ := Nat.exists_eq_add_of_le h.le
  rw [complete_add fun j hj => h.goesOn hj, complete_of_finished h.finished]

theorem FailsWithin.complete_eq (h : m.FailsWithin limit k fault) :
    complete limit m = .failed (m.afterSteps (k + 1)) fault := by
  obtain ⟨rest, rfl⟩ := Nat.exists_eq_add_of_lt h.lt
  rw [Nat.add_assoc, complete_add fun j hj => h.goesOn hj, afterSteps_succ]
  exact complete_of_fault (running_of_fault h.fault (Nat.le_refl k))
    ((permissive_afterSteps k).trans h.strict) h.fault rest

theorem complete_of_goesOn_of_running (h : ∀ j < limit, (m.afterSteps j).GoesOn)
    (hrunning : (m.afterSteps limit).status = .running) :
    complete limit m = .unfinished (m.afterSteps limit) := by
  have hadd := complete_add h 0
  rw [Nat.add_zero] at hadd
  rw [hadd]
  exact if_neg (not_isFinished_of_running hrunning)

end Mips.Machine
