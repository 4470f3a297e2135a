import Mips.Machine.Registers
import Mips.Memory.Data
import Mips.Memory.Text

/-!
# Machines

A single-cycle machine: a loaded program, data, registers, and a program counter.
It is running as long as the program counter lies within the program, and whether
it is gets decided when it starts and after every step, not while an operation is
carried out.
-/

namespace Mips

/-- How a machine is set up. -/
structure Config where
  /-- The size of the text segment in bytes. -/
  textSize : Nat := 512
  /-- The size of the data segment in bytes. -/
  dataSize : Nat := 512
  /-- Whether an instruction that fails is skipped.  A strict machine stays on
  it. -/
  permissive : Bool := false
deriving DecidableEq

/-- Whether there is anything left to execute. -/
inductive Status where
  | running
  /-- The program counter has left the program. -/
  | finished
deriving DecidableEq

/-- A machine with its program and its state. -/
structure Machine where
  config : Config
  text : TextSegment
  data : DataSegment
  registers : Registers
  /-- The address of the next instruction. -/
  pc : Address
  status : Status
  /-- The number of instructions executed since the machine started. -/
  steps : Nat

namespace Machine

/-- Whether the program has come to its end. -/
def isFinished (m : Machine) : Bool :=
  m.status = .finished

/-- The machine with its status brought in line with its program counter. -/
def refreshed (m : Machine) : Machine :=
  { m with status := if m.text.contains m.pc then .running else .finished }

/-- A machine about to execute the first instruction of a program. -/
def start (config : Config) (text : TextSegment) (data : DataSegment) : Machine :=
  refreshed
    { config, text, data
      registers := Registers.initial dataBase
      pc := textBase
      status := .running
      steps := 0 }

/-- Loads a program into a new machine.  Of two unusable segments the text segment
is reported. -/
def load (program : Array Word) (config : Config) : Except LoadError Machine := do
  let text ← TextSegment.load program config.textSize
  let data ← DataSegment.zeroed config.dataSize
  return start config text data

/-- The machine before its first step.  The program stays loaded. -/
def reset (m : Machine) : Machine :=
  start m.config m.text m.data.cleared

end Machine
end Mips
