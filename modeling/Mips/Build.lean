import Mips.Assembly.Program
import Mips.Machine.Step

/-!
# Machines from source text

Assembling a source text and loading its words into a new machine.  Nothing is
loaded if the text cannot be assembled.
-/

namespace Mips

/-- Why a source text gives no machine. -/
inductive BuildError where
  | assembly (error : AssemblyError)
  | load (error : LoadError)

/-- The wording of a build error. -/
def BuildError.message : BuildError → String
  | .assembly error => AssemblyError.message error
  | .load error => error.message

namespace Machine

/-- Loads words into a machine, with what is logged about it. -/
def loadWithLog (program : Array Word) (config : Config) :
    Except LoadError (Machine × List Log.Record) := do
  let machine ← load program config
  return (machine, [machine.loadRecord])

/-- Assembles a source text and loads it, with what is logged about both. -/
def buildWithLog (source : String) (config : Config) :
    Except BuildError (Machine × List Log.Record) := do
  let program ← (Program.ofSource source).mapError BuildError.assembly
  let (machine, records) ← (loadWithLog program.words.toArray config).mapError BuildError.load
  return (machine, program.record :: records)

/-- Assembles a source text and loads it. -/
def build (source : String) (config : Config) : Except BuildError Machine :=
  (buildWithLog source config).map Prod.fst

end Machine
end Mips
