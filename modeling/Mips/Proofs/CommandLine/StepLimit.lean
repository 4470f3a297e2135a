import Mips.Proofs.CommandLine.Reports
import Mips.Proofs.Machine.Atomicity

/-!
# The limit on steps

The simulator can be given a limit on the number of steps.  The limit is a threshold: a
program that finishes does so with every limit from a certain number on, and the outcome is
then always the same (`Simulator.max_steps_is_a_threshold`): it shows the state in which the
program finishes.  With a smaller limit the command fails and shows nothing of the machine,
and the report tells the fault that came within the limit, or else the limit.

A fault is reported with the program counter behind the failing step.  It is the one in
front of it because a strict machine stays where it is (`Machine.afterSteps_of_fault`).
-/
namespace Mips

namespace Machine

variable {m : Machine} {limit limit' k : Nat}

theorem FinishesWithin.mono (h : m.FinishesWithin limit k) (hle : limit ≤ limit') :
    m.FinishesWithin limit' k :=
  { h with le := Nat.le_trans h.le hle }

theorem attuned_of_build {source : String} {config : Config}
    (h : build source config = .ok m) : m.Attuned := by
  obtain ⟨program, -, hload⟩ := build_eq_ok_iff.mp h
  exact attuned_of_load hload

end Machine

namespace CommandLine.Simulator

open Machine (FinishesWithin FailsWithin)

/-- A call with a limit on the number of steps. -/
def Options.limited (file : String) (config : Config) (limit : Nat) : Options :=
  { file, config, maxSteps? := some limit }

variable {source file : String} {config : Config} {m : Machine} {outcome : Outcome}
  {fuel limit k : Nat} {fault : Fault}

/-! ## Reports of success and of failure -/

theorem ShowsState.exitCode_eq (h : ShowsState m outcome) : outcome.exitCode = 0 := by
  cases h
  rfl

theorem FailsWith.exitCode_eq {message : String} (h : FailsWith message outcome) :
    outcome.exitCode = 1 :=
  congrArg Outcome.exitCode h

theorem FailsWith.stdout_eq {message : String} (h : FailsWith message outcome) :
    outcome.stdout = "" :=
  congrArg Outcome.stdout h

theorem TellsFault.exists_failsWith {pc : Address} (h : TellsFault pc fault outcome) :
    ∃ message, FailsWith message outcome := by
  obtain ⟨hex, message, -, -, hfails⟩ := h
  exact ⟨_, hfails⟩

theorem ShowsState.not_failsWith (h : ShowsState m outcome) (message : String) :
    ¬ FailsWith message outcome := fun hfails =>
  absurd (h.exitCode_eq.symm.trans hfails.exitCode_eq) (by decide)

/-! ## The outcome of a run with a limit -/

theorem run_limited (hbuild : Machine.build source config = .ok m) :
    run fuel (.limited file config limit) source = some (conclude limit (m.complete limit)) := by
  unfold run
  rw [show (Options.limited file config limit).config = config from rfl, hbuild]
  rfl

theorem conclude_of_finishesWithin (h : m.FinishesWithin limit k) :
    conclude limit (m.complete limit) = { stdout := finalState (m.afterSteps k) } := by
  rw [h.complete_eq]
  rfl

theorem showsState_of_finishesWithin (h : m.FinishesWithin limit k) :
    ShowsState (m.afterSteps k) (conclude limit (m.complete limit)) := by
  rw [conclude_of_finishesWithin h]
  exact showsState_finalState _

theorem tellsFault_of_failsWithin (hattuned : m.Attuned) (h : m.FailsWithin limit k fault) :
    TellsFault (m.afterSteps k).pc fault (conclude limit (m.complete limit)) := by
  have hstays := Machine.afterSteps_of_fault hattuned h.strict h.fault
  rw [h.complete_eq, hstays]
  exact tellsFault_failure (Machine.isToldBy_message h.fault)

theorem tellsLimit_of_neither (hfinishes : ¬ ∃ k, m.FinishesWithin limit k)
    (hfails : ¬ ∃ k fault, m.FailsWithin limit k fault) :
    TellsLimit limit (conclude limit (m.complete limit)) := by
  rcases m.run_cases limit with hfinishes' | hfails' | ⟨hgoes, hrunning⟩
  · exact absurd hfinishes' hfinishes
  · exact absurd hfails' hfails
  · rw [Machine.complete_of_goesOn_of_running hgoes hrunning]
    exact tellsLimit_failure limit

/-- The outcome tells how the run has ended. -/
theorem conclude_cases (hattuned : m.Attuned) (limit : Nat) :
    (∃ k, m.FinishesWithin limit k ∧
      ShowsState (m.afterSteps k) (conclude limit (m.complete limit))) ∨
    (∃ k fault, m.FailsWithin limit k fault ∧
      TellsFault (m.afterSteps k).pc fault (conclude limit (m.complete limit))) ∨
    ((¬ ∃ k, m.FinishesWithin limit k) ∧ (¬ ∃ k fault, m.FailsWithin limit k fault) ∧
      TellsLimit limit (conclude limit (m.complete limit))) := by
  by_cases hfinishes : ∃ k, m.FinishesWithin limit k
  · obtain ⟨k, hk⟩ := hfinishes
    exact .inl ⟨k, hk, showsState_of_finishesWithin hk⟩
  · by_cases hfails : ∃ k fault, m.FailsWithin limit k fault
    · obtain ⟨k, fault, hk⟩ := hfails
      exact .inr (.inl ⟨k, fault, hk, tellsFault_of_failsWithin hattuned hk⟩)
    · exact .inr (.inr ⟨hfinishes, hfails, tellsLimit_of_neither hfinishes hfails⟩)

/-! ## What the outcome tells of the run -/

section
variable (hattuned : m.Attuned)
include hattuned

theorem exists_finishesWithin (h : (conclude limit (m.complete limit)).exitCode = 0) :
    ∃ k, m.FinishesWithin limit k := by
  rcases conclude_cases hattuned limit with ⟨k, hk, -⟩ | ⟨k, fault, -, htells⟩ | ⟨-, -, htells⟩
  · exact ⟨k, hk⟩
  · obtain ⟨message, hfails⟩ := htells.exists_failsWith
    exact absurd (h.symm.trans hfails.exitCode_eq) (by decide)
  · exact absurd (h.symm.trans (FailsWith.exitCode_eq htells)) (by decide)

theorem exists_failsWithin {pc : Address}
    (h : TellsFault pc fault (conclude limit (m.complete limit))) :
    ∃ k, m.FailsWithin limit k fault ∧ (m.afterSteps k).pc = pc := by
  rcases conclude_cases hattuned limit with ⟨k, -, hshows⟩ | ⟨k, fault', hk, htells⟩ |
    ⟨-, -, hlimit⟩
  · obtain ⟨message, hfails⟩ := h.exists_failsWith
    exact absurd hfails (hshows.not_failsWith message)
  · obtain ⟨rfl, rfl⟩ := h.unique htells
    exact ⟨k, hk, rfl⟩
  · exact absurd hlimit h.not_tellsLimit

theorem neither_of_tellsLimit (h : TellsLimit limit (conclude limit (m.complete limit))) :
    (¬ ∃ k, m.FinishesWithin limit k) ∧ ¬ ∃ k fault, m.FailsWithin limit k fault := by
  rcases conclude_cases hattuned limit with ⟨k, -, hshows⟩ | ⟨k, fault, -, htells⟩ |
    ⟨hfinishes, hfails, -⟩
  · exact absurd h (hshows.not_failsWith _)
  · exact absurd h htells.not_tellsLimit
  · exact ⟨hfinishes, hfails⟩

theorem stdout_of_exitCode_ne (h : (conclude limit (m.complete limit)).exitCode ≠ 0) :
    (conclude limit (m.complete limit)).stdout = "" := by
  rcases conclude_cases hattuned limit with ⟨k, -, hshows⟩ | ⟨k, fault, -, htells⟩ |
    ⟨-, -, htells⟩
  · exact absurd hshows.exitCode_eq h
  · obtain ⟨message, hfails⟩ := htells.exists_failsWith
    exact hfails.stdout_eq
  · exact FailsWith.stdout_eq htells

end

/-! ## The threshold -/

/-- **The limit on steps is an exact threshold.**  With a limit of `limit` steps the
simulator succeeds if the machine finishes within the limit, and shows its state there.  It
tells a fault and the address of the instruction exactly if a strict machine meets that fault
there within the limit, and it tells the limit exactly if neither happens.  Only a success
shows anything on the standard output, and a larger limit does not change it. -/
theorem max_steps_is_a_threshold (hbuild : Machine.build source config = .ok m) (fuel : Nat)
    (file : String) (limit : Nat) :
    ∃ outcome, run fuel (.limited file config limit) source = some outcome ∧
      (outcome.exitCode = 0 ↔ ∃ k, m.FinishesWithin limit k) ∧
      (∀ k, m.FinishesWithin limit k → ShowsState (m.afterSteps k) outcome) ∧
      (∀ pc fault, TellsFault pc fault outcome ↔
        ∃ k, m.FailsWithin limit k fault ∧ (m.afterSteps k).pc = pc) ∧
      (TellsLimit limit outcome ↔
        (¬ ∃ k, m.FinishesWithin limit k) ∧ ¬ ∃ k fault, m.FailsWithin limit k fault) ∧
      (outcome.exitCode ≠ 0 → outcome.stdout = "") ∧
      (outcome.exitCode = 0 → ∀ limit', limit ≤ limit' →
        run fuel (.limited file config limit') source = some outcome) := by
  have hattuned := Machine.attuned_of_build hbuild
  refine ⟨_, run_limited hbuild, ⟨exists_finishesWithin hattuned, ?_⟩,
    fun k hk => showsState_of_finishesWithin hk,
    fun pc fault => ⟨exists_failsWithin hattuned, ?_⟩, ⟨neither_of_tellsLimit hattuned, ?_⟩,
    stdout_of_exitCode_ne hattuned, ?_⟩
  · rintro ⟨k, hk⟩
    exact (showsState_of_finishesWithin hk).exitCode_eq
  · rintro ⟨k, hk, rfl⟩
    exact tellsFault_of_failsWithin hattuned hk
  · rintro ⟨hfinishes, hfails⟩
    exact tellsLimit_of_neither hfinishes hfails
  · intro hcode limit' hle
    obtain ⟨k, hk⟩ := exists_finishesWithin hattuned hcode
    rw [run_limited hbuild, conclude_of_finishesWithin hk,
      conclude_of_finishesWithin (hk.mono hle)]

theorem max_steps_is_a_threshold_at_two_steps :
    ∃ m, Machine.build "addi $t0, $zero, 1\nj end\nend:" {} = .ok m ∧ m.FinishesWithin 2 2 ∧
      (∃ outcome, run 0 (.limited "count.asm" {} 1) "addi $t0, $zero, 1\nj end\nend:" =
        some outcome ∧ TellsLimit 1 outcome) ∧
      (∃ outcome, run 0 (.limited "count.asm" {} 2) "addi $t0, $zero, 1\nj end\nend:" =
          some outcome ∧ ShowsState (m.afterSteps 2) outcome ∧
        run 0 (.limited "count.asm" {} 7) "addi $t0, $zero, 1\nj end\nend:" = some outcome) ∧
      ∃ outcome, run 0 (.limited "load.asm" {} 7) "lw $t0, 0($zero)" = some outcome ∧
        TellsFault 0x400000 (.access (.misaligned .data 0)) outcome := by
  have hrun : (Machine.build "addi $t0, $zero, 1\nj end\nend:" {}).toOption.map (fun m =>
      (m.status, (m.afterSteps 1).status, (m.afterSteps 2).status, m.step.2,
        (m.afterSteps 1).step.2)) = some (.running, .running, .finished, none, none) := by
    decide +kernel
  obtain ⟨m, hbuild, hsteps⟩ := Option.map_eq_some_iff.mp hrun
  rw [toOption_eq_some] at hbuild
  simp only [Prod.mk.injEq] at hsteps
  obtain ⟨hstart, hmiddle, hend, hfirst, hsecond⟩ := hsteps
  have hfinishes : m.FinishesWithin 2 2 := by
    refine ⟨Nat.le_refl 2, hend, fun j hj => ?_, fun _ j hj => ?_⟩
    all_goals obtain rfl | rfl : j = 0 ∨ j = 1 := by omega
    · exact fun h => absurd (hstart.symm.trans h) nofun
    · exact fun h => absurd (hmiddle.symm.trans h) nofun
    · exact hfirst
    · exact hsecond
  have hnot : ¬ ∃ k, m.FinishesWithin 1 k := by
    rintro ⟨k, hk⟩
    have hle := hk.le
    obtain rfl | rfl : k = 0 ∨ k = 1 := by omega
    · exact absurd (hstart.symm.trans hk.finished) nofun
    · exact absurd (hmiddle.symm.trans hk.finished) nofun
  have hclean : ¬ ∃ k fault, m.FailsWithin 1 k fault := by
    rintro ⟨k, fault, hk⟩
    obtain rfl : k = 0 := Nat.lt_one_iff.mp hk.lt
    exact absurd (hfirst.symm.trans hk.fault) nofun
  obtain ⟨early, hearly, -, -, -, hlimit, -⟩ :=
    max_steps_is_a_threshold hbuild 0 "count.asm" 1
  obtain ⟨outcome, houtcome, hcode, hshows, -, -, -, hlarger⟩ :=
    max_steps_is_a_threshold hbuild 0 "count.asm" 2
  have hload : (Machine.build "lw $t0, 0($zero)" {}).toOption.map (fun m =>
      (m.config.permissive, m.pc, m.step.2)) =
        some (false, 0x400000, some (.access (.misaligned .data 0))) := by
    decide +kernel
  obtain ⟨m', hbuild', hfirst'⟩ := Option.map_eq_some_iff.mp hload
  rw [toOption_eq_some] at hbuild'
  simp only [Prod.mk.injEq] at hfirst'
  obtain ⟨hstrict, hpc, hfault⟩ := hfirst'
  have hfails : m'.FailsWithin 7 0 (.access (.misaligned .data 0)) :=
    ⟨hstrict, by decide, fun j hj => absurd hj (Nat.not_lt_zero j), hfault⟩
  obtain ⟨failed, hfailed, -, -, htells, -⟩ := max_steps_is_a_threshold hbuild' 0 "load.asm" 7
  exact ⟨m, hbuild, hfinishes, ⟨early, hearly, hlimit.mpr ⟨hnot, hclean⟩⟩,
    ⟨outcome, houtcome, hshows 2 hfinishes, hlarger (hcode.mpr ⟨2, hfinishes⟩) 7 (by decide)⟩,
    failed, hfailed, (htells _ _).mpr ⟨0, hfails, hpc⟩⟩

end CommandLine.Simulator
end Mips
