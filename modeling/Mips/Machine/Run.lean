import Mips.Machine.Step

/-!
# Runs

A run repeats the step until the machine is finished, a strict machine meets a
fault, or a limit on the number of steps is reached.  `Machine.run` keeps the
faults and the log of the run.  `Machine.complete` only tells which of the three
ended it, and on the last hands back the machine, from which the run can go on.
-/

namespace Mips

/-- A run so far. -/
structure Run where
  machine : Machine
  /-- The number of steps taken, failed ones included. -/
  count : Nat := 0
  /-- The faults met, each under the address of its instruction. -/
  faults : Array (Address × Fault) := #[]
  /-- What was logged. -/
  log : Array Log.Record := #[]

namespace Run

/-- Takes at most `limit` further steps. -/
def extend (threshold : Log.Level) : Nat → Run → Run
  | 0, run => run
  | limit + 1, ⟨machine, count, faults, log⟩ =>
    if machine.isFinished then ⟨machine, count, faults, log⟩
    else
      let pc := machine.pc
      match machine.stepWithLog threshold with
      | (machine, none, records) => extend threshold limit ⟨machine, count + 1, faults, log ++ records⟩
      | (machine, some fault, records) =>
        let run := ⟨machine, count + 1, faults.push (pc, fault), log ++ records⟩
        if run.machine.config.permissive then extend threshold limit run else run

end Run

namespace Machine

/-- Takes at most `limit` steps and keeps the log from `threshold` upward. -/
def run (m : Machine) (threshold : Log.Level) (limit : Nat) : Run :=
  Run.extend threshold limit { machine := m }

/-- How a run without a record of its faults ends. -/
inductive Completion where
  /-- The program came to its end. -/
  | finished (machine : Machine)
  /-- A strict machine met a fault and stays on the instruction. -/
  | failed (machine : Machine) (fault : Fault)
  /-- The limit was reached first. -/
  | unfinished (machine : Machine)

/-- Takes at most `limit` steps. -/
def complete : Nat → Machine → Completion
  | 0, m => if m.isFinished then .finished m else .unfinished m
  | limit + 1, m =>
    if m.isFinished then .finished m
    else match m.step with
      | (m, none) => complete limit m
      | (m, some fault) => if m.config.permissive then complete limit m else .failed m fault

end Machine
end Mips
