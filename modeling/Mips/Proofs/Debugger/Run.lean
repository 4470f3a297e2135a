import Mathlib.Order.Bounds.Defs
import Mips.Debugger.Session
import Mips.Proofs.Machine.Runs

/-!
# The command to run

A session takes a step in two places: on the command `step`, which first looks whether
there is anything left to execute, and in the loop behind the command `run`.  The two
agree: to run is to give the command `step` a number of times
(`Session.perform_run_eq_steps`).  The number is the first at which the session rests
(`Session.RestsAfter`), unless the limit comes before it.
-/
namespace Mips

/-- What is logged about a step does not change the step. -/
theorem Machine.step_of_stepWithLog {m m' : Machine} {fault? : Option Fault}
    {records : List Log.Record} {level : Log.Level}
    (h : m.stepWithLog level = (m', fault?, records)) : m.step = (m', fault?) := by
  unfold Machine.stepWithLog at h
  cases hstep : m.step with
  | mk m₁ fault₁? =>
    rw [hstep] at h
    cases fault₁? <;> cases h <;> rfl

namespace Debugger.Session

variable {s : Session} {k n limit : Nat}

/-! ## Commands in a row -/

/-- The session after some commands. -/
def after (s : Session) (commands : List Command) : Session :=
  commands.foldl (fun s command => (s.perform command).session) s

/-- What some commands put out, one behind the other. -/
def outputs (s : Session) : List Command → List Output
  | [] => []
  | command :: rest =>
    (s.perform command).output.toList ++ (s.perform command).session.outputs rest

theorem after_append (commands rest : List Command) :
    s.after (commands ++ rest) = (s.after commands).after rest :=
  List.foldl_append

theorem outputs_append (commands rest : List Command) :
    s.outputs (commands ++ rest) = s.outputs commands ++ (s.after commands).outputs rest := by
  induction commands generalizing s with
  | nil => rfl
  | cons command commands ih =>
    rw [List.cons_append, outputs, ih, outputs, List.append_assoc]
    rfl

/-- The session after `n` steps. -/
def afterSteps (s : Session) (n : Nat) : Session :=
  s.after (List.replicate n .step)

/-- What `n` steps put out. -/
def outputsOfSteps (s : Session) (n : Nat) : List Output :=
  s.outputs (List.replicate n .step)

@[simp] theorem afterSteps_zero : s.afterSteps 0 = s := rfl

@[simp] theorem outputsOfSteps_zero : s.outputsOfSteps 0 = [] := rfl

theorem afterSteps_succ (n : Nat) :
    s.afterSteps (n + 1) = ((s.afterSteps n).perform .step).session := by
  unfold afterSteps
  rw [List.replicate_succ', after_append]
  rfl

theorem outputsOfSteps_succ (n : Nat) :
    s.outputsOfSteps (n + 1) =
      s.outputsOfSteps n ++ ((s.afterSteps n).perform .step).output.toList := by
  unfold outputsOfSteps afterSteps
  rw [List.replicate_succ', outputs_append]
  exact congrArg _ (List.append_nil _)

/-! ## The session steps as its machine does -/

/-- The machine steps, tracing stays as it is, and the flag says whether the machine met no
fault. -/
theorem step_eq (s : Session) :
    ∃ output,
      s.step = ({ s with machine := s.machine.step.1 }, s.machine.step.2.isNone, output) := by
  obtain ⟨m, tracing⟩ := s
  cases hlog : m.stepWithLog threshold with
  | mk m' rest =>
    obtain ⟨fault?, records⟩ := rest
    simp only [step, hlog, Machine.step_of_stepWithLog hlog]
    cases fault? with
    | none => exact ⟨_, rfl⟩
    | some fault => exact ⟨_, rfl⟩

theorem session_step : s.step.1 = { s with machine := s.machine.step.1 } := by
  obtain ⟨output, h⟩ := step_eq s
  rw [h]

theorem succeeded_step : s.step.2.1 = s.machine.step.2.isNone := by
  obtain ⟨output, h⟩ := step_eq s
  rw [h]

theorem perform_step_of_running (h : s.machine.status = .running) :
    s.perform .step = { session := s.step.1, output := s.step.2.2.toArray } :=
  if_neg (Machine.not_isFinished_of_running h)

theorem session_perform_step :
    (s.perform .step).session = { s with machine := s.machine.step.1 } := by
  cases hstatus : s.machine.status with
  | running => rw [perform_step_of_running hstatus, session_step]
  | finished =>
    have hfinished := Machine.isFinished_iff.mpr hstatus
    rw [Machine.step_of_isFinished hfinished]
    unfold perform
    rw [if_pos hfinished]

theorem afterSteps_eq (n : Nat) :
    s.afterSteps n = { s with machine := s.machine.afterSteps n } := by
  induction n with
  | zero => rfl
  | succ n ih => rw [afterSteps_succ, session_perform_step, ih, Machine.afterSteps_succ]

theorem machine_afterSteps (n : Nat) : (s.afterSteps n).machine = s.machine.afterSteps n := by
  rw [afterSteps_eq]

/-! ## The loop -/

theorem appendList_append {α : Type} (output : Array α) (new rest : List α) :
    output ++ new ++ rest = output ++ (new ++ rest) :=
  Array.ext' (by simp only [Array.toList_appendList, List.append_assoc])

/-- The warning of a run that gives up. -/
def stopWarning : Output :=
  .log ⟨.warn, "Stopped after 1000000 steps"⟩

theorem runFor_of_finished (h : s.machine.status = .finished) (limit : Nat)
    (output : Array Output) : runFor limit s output = (s, output) := by
  have hfinished := Machine.isFinished_iff.mpr h
  cases limit with
  | zero => exact if_pos hfinished
  | succ limit => exact if_pos hfinished

theorem runFor_zero_of_running (h : s.machine.status = .running) (output : Array Output) :
    runFor 0 s output = (s, output ++ [stopWarning]) := by
  rw [runFor, if_neg (Machine.not_isFinished_of_running h)]
  rfl

/-- One round of the loop is one command to step, and goes on behind it or does not. -/
theorem runFor_of_running (h : s.machine.status = .running) (limit : Nat)
    (output : Array Output) :
    runFor (limit + 1) s output =
      if s.machine.step.2.isNone || s.machine.config.permissive then
        runFor limit (s.perform .step).session (output ++ (s.perform .step).output.toList)
      else ((s.perform .step).session, output ++ (s.perform .step).output.toList) := by
  have hconfig : s.step.1.machine.config = s.machine.config := by
    rw [session_step]
    exact Machine.config_afterSteps 1
  rw [runFor, if_neg (Machine.not_isFinished_of_running h), perform_step_of_running h,
    ← succeeded_step, ← hconfig]

/-- While a run goes on, its rounds are simply commands to step. -/
theorem runFor_add (h : ∀ j < k, (s.machine.afterSteps j).GoesOn) (limit : Nat)
    (output : Array Output) :
    runFor (k + limit) s output =
      runFor limit (s.afterSteps k) (output ++ s.outputsOfSteps k) := by
  induction k generalizing limit with
  | zero => rw [Nat.zero_add, afterSteps_zero, outputsOfSteps_zero, Array.appendList_nil]
  | succ k ih =>
    obtain ⟨hrunning, hstrict⟩ : (s.afterSteps k).machine.GoesOn := by
      rw [machine_afterSteps]
      exact h k (by omega)
    have hgoes : ((s.afterSteps k).machine.step.2.isNone ||
        (s.afterSteps k).machine.config.permissive) = true := by
      cases hmode : (s.afterSteps k).machine.config.permissive with
      | true => exact Bool.or_true _
      | false => rw [hstrict hmode]; rfl
    rw [Nat.add_right_comm, Nat.add_assoc, ih (fun j hj => h j (by omega)),
      runFor_of_running hrunning, if_pos hgoes, ← afterSteps_succ, appendList_append,
      ← outputsOfSteps_succ]

/-! ## Where the session rests -/

/-- The session rests after `n` steps: the program has finished, or the machine is strict
and the last of the steps failed. -/
def RestsAfter (s : Session) : Nat → Prop
  | 0 => s.machine.status = .finished
  | n + 1 =>
    (s.afterSteps (n + 1)).machine.status = .finished ∨
      s.machine.config.permissive = false ∧ (s.afterSteps n).machine.step.2 ≠ none

instance (s : Session) : DecidablePred s.RestsAfter
  | 0 => inferInstanceAs (Decidable (_ = _))
  | _ + 1 => inferInstanceAs (Decidable (_ ∨ _ = _ ∧ _ ≠ none))

theorem restsAfter_of_finished (h : (s.machine.afterSteps n).status = .finished) :
    s.RestsAfter n := by
  cases n with
  | zero => exact h
  | succ n =>
    refine .inl ?_
    rw [machine_afterSteps]
    exact h

theorem not_restsAfter (hgoes : ∀ j < n, (s.machine.afterSteps j).GoesOn)
    (hrunning : (s.machine.afterSteps n).status = .running) : ¬ s.RestsAfter n := by
  cases n with
  | zero =>
    intro hfinished
    exact absurd (hrunning.symm.trans hfinished) nofun
  | succ n =>
    rintro (hfinished | ⟨hstrict, hfault⟩)
    · rw [machine_afterSteps] at hfinished
      exact absurd (hrunning.symm.trans hfinished) nofun
    · rw [machine_afterSteps] at hfault
      exact hfault (Machine.succeeds_of_goesOn hstrict hgoes n (Nat.lt_succ_self n))

theorem restsAfter_of_fault {fault : Fault} (hstrict : s.machine.config.permissive = false)
    (hfault : (s.machine.afterSteps n).step.2 = some fault) : s.RestsAfter (n + 1) := by
  refine .inr ⟨hstrict, ?_⟩
  rw [machine_afterSteps, hfault]
  nofun

theorem isLeast_rest (hle : k ≤ limit) (hend : s.RestsAfter k ∨ k = limit)
    (hbefore : ∀ n < k, ¬ s.RestsAfter n) :
    IsLeast {n | s.RestsAfter n ∨ n = limit} k := by
  refine ⟨hend, fun n hn => Nat.le_of_not_lt fun hlt => ?_⟩
  rcases hn with hrests | rfl
  · exact hbefore n hlt hrests
  · omega

/-- **The loop behind the command to run**: steps until the session rests, but not more than
the limit, and a warning if it is only the limit that ends them. -/
theorem runFor_eq_steps (s : Session) (limit : Nat) (output : Array Output) :
    ∃ k, IsLeast {n | s.RestsAfter n ∨ n = limit} k ∧
      runFor limit s output =
        (s.afterSteps k, output ++ (s.outputsOfSteps k ++
          if k = limit ∧ ¬ s.RestsAfter k then [stopWarning] else [])) := by
  rcases s.machine.run_cases limit with ⟨k, hk⟩ | ⟨k, fault, hk⟩ | ⟨hgoes, hrunning⟩
  · have hrests : s.RestsAfter k := restsAfter_of_finished hk.finished
    refine ⟨k, isLeast_rest hk.le (.inl hrests) fun n hn => ?_, ?_⟩
    · exact not_restsAfter (fun j hj => hk.goesOn (Nat.lt_trans hj hn)) (hk.goesOn hn).1
    · have hfinished : (s.afterSteps k).machine.status = .finished := by
        rw [machine_afterSteps]
        exact hk.finished
      obtain ⟨rest, rfl⟩ := Nat.exists_eq_add_of_le hk.le
      rw [runFor_add fun j hj => hk.goesOn hj, runFor_of_finished hfinished,
        if_neg fun h => h.2 hrests, List.append_nil]
  · have hrests : s.RestsAfter (k + 1) := restsAfter_of_fault hk.strict hk.fault
    refine ⟨k + 1, isLeast_rest hk.lt (.inl hrests) fun n hn => ?_, ?_⟩
    · have hle := Nat.le_of_lt_succ hn
      exact not_restsAfter (fun j hj => hk.goesOn (by omega))
        (Machine.running_of_fault hk.fault hle)
    · have hrunning : (s.afterSteps k).machine.status = .running := by
        rw [machine_afterSteps]
        exact Machine.running_of_fault hk.fault (Nat.le_refl k)
      -- the failing step is the last round of the loop
      have hstops : ¬ ((s.afterSteps k).machine.step.2.isNone ||
          (s.afterSteps k).machine.config.permissive) = true := by
        rw [machine_afterSteps, hk.fault, Machine.permissive_afterSteps, hk.strict]
        nofun
      obtain ⟨rest, rfl⟩ := Nat.exists_eq_add_of_lt hk.lt
      rw [Nat.add_assoc, runFor_add fun j hj => hk.goesOn hj, runFor_of_running hrunning,
        if_neg hstops, ← afterSteps_succ, appendList_append, ← outputsOfSteps_succ,
        if_neg fun h => h.2 hrests, List.append_nil]
  · have hrests : ¬ s.RestsAfter limit := not_restsAfter hgoes hrunning
    refine ⟨limit, isLeast_rest (Nat.le_refl limit) (.inr rfl) fun n hn => ?_, ?_⟩
    · exact not_restsAfter (fun j hj => hgoes j (Nat.lt_trans hj hn)) (hgoes n hn).1
    · have hrunning' : (s.afterSteps limit).machine.status = .running := by
        rw [machine_afterSteps]
        exact hrunning
      have hadd := runFor_add hgoes 0 output
      rw [Nat.add_zero] at hadd
      rw [hadd, runFor_zero_of_running hrunning', appendList_append, if_pos ⟨rfl, hrests⟩]

/-- **To run is to step.**  The command `run` does to a session what some number of commands
to `step` do, and puts out what they put out.  The number is the first after which the
program has finished or a strict machine has just failed, and it is at most 1000000.  Only
if the session does not rest there is the warning put out behind the steps. -/
theorem perform_run_eq_steps (s : Session) :
    ∃ k, IsLeast {n | s.RestsAfter n ∨ n = 1000000} k ∧
      (s.perform .run).session = s.afterSteps k ∧
      (s.perform .run).output.toList =
        s.outputsOfSteps k ++
          (if k = 1000000 ∧ ¬ s.RestsAfter k then
            [.log ⟨.warn, "Stopped after 1000000 steps"⟩] else []) ∧
      (s.perform .run).continues = true ∧
      (s.machine.status = .finished → k = 0 ∧ (s.perform .run).output = #[]) := by
  obtain ⟨k, hleast, hrun⟩ := runFor_eq_steps s runLimit #[]
  have hperform : s.perform .run =
      { session := s.afterSteps k,
        output := (#[] : Array Output) ++ (s.outputsOfSteps k ++
          if k = runLimit ∧ ¬ s.RestsAfter k then [stopWarning] else []) } := by
    simp only [perform, hrun]
  refine ⟨k, hleast, ?_, ?_, ?_, fun hfinished => ?_⟩
  · rw [hperform]
  · rw [hperform]
    exact Array.toList_appendList
  · rw [hperform]
  · have hzero : s.RestsAfter 0 ∨ 0 = 1000000 := .inl hfinished
    exact ⟨Nat.le_zero.mp (hleast.2 hzero), by simp only [perform, runFor_of_finished hfinished]⟩

end Debugger.Session
end Mips
