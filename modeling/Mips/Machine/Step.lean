import Mips.Instruction.Disassembly
import Mips.Log
import Mips.Machine.Effect

/-!
# Steps

A step fetches the word at the program counter, decodes it and carries it out.
When any of the three fails the step reports a fault; a strict machine is then as
it was, and a permissive one goes on behind the failing instruction.  A finished
machine takes no further steps.

`Machine.stepWithLog` is a step together with what the machine logs about it.
-/

namespace Mips.Machine

/-- The word at the program counter. -/
def fetch (m : Machine) : Except Fault Word :=
  (m.text.read m.pc).mapError Fault.access

/-- What the instruction at the program counter would change, or why it fails. -/
def attempt (m : Machine) : Except Fault Effect := do
  let word ← m.fetch
  let operation ← (decode word).mapError Fault.undecodable
  m.effect operation

/-- The machine with one more instruction to its count. -/
def counted (m : Machine) : Machine :=
  { m with steps := m.steps + 1 }

/-- The machine behind the current instruction, with nothing else changed. -/
def skipped (m : Machine) : Machine :=
  { m with pc := m.following }

/-- One step, with the fault that it met. -/
def step (m : Machine) : Machine × Option Fault :=
  if m.isFinished then (m, none)
  else match m.attempt with
    | .ok effect => ((m.commit effect).counted.refreshed, none)
    | .error fault => ((if m.config.permissive then m.skipped else m).refreshed, some fault)

theorem step_of_isFinished {m : Machine} (h : m.isFinished) : m.step = (m, none) := by
  simp [step, h]

/-! ## What is logged -/

/-- The record of a machine that has just been loaded. -/
def loadRecord (m : Machine) : Log.Record :=
  ⟨.debug, "Loaded " ++ Numeral.decimal m.text.size ++ " instructions into " ++ m.text.summary⟩

/-- The record of the instruction about to be executed, if there is one. -/
def traceRecord? (m : Machine) : Option Log.Record :=
  if m.isFinished then none
  else match m.fetch with
    | .ok word => some ⟨.trace, Word.lowerHex m.pc ++ ": " ++ disassemble m.pc word⟩
    | .error _ => none

/-- The record of a fault at address `pc`. -/
def faultRecord (permissive : Bool) (pc : Address) (fault : Fault) : Log.Record :=
  if permissive then
    ⟨.warn, "Skipping instruction at " ++ Word.lowerHex pc ++ ": " ++ fault.message⟩
  else
    ⟨.debug, "Instruction at " ++ Word.lowerHex pc ++ " failed: " ++ fault.message⟩

/-- One step and the records about it from `threshold` upward. -/
def stepWithLog (m : Machine) (threshold : Log.Level) :
    Machine × Option Fault × List Log.Record :=
  let traced := if Log.Level.heardFrom .trace threshold then m.traceRecord?.toList else []
  let pc := m.pc
  match m.step with
  | (m, none) => (m, none, traced)
  | (m, some fault) =>
    (m, some fault,
      traced ++ Log.heard threshold [faultRecord m.config.permissive pc fault])

end Mips.Machine
