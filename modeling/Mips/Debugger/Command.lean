import Mips.Text.Blank

/-!
# Debugger commands

A command is one or two words; blanks around and between them do not matter.
-/

namespace Mips.Debugger

/-- What a debugger can be told to do. -/
inductive Command where
  /-- Nothing, on an empty line. -/
  | nothing
  /-- Show every instruction before it is executed, or stop doing so. -/
  | trace (enabled : Bool)
  /-- Execute one instruction. -/
  | step
  /-- Execute until the program comes to its end. -/
  | run
  /-- Start the program over. -/
  | reset
  /-- Show the registers. -/
  | registers
  /-- Show the data words in use. -/
  | memory
  /-- Show the program. -/
  | text
  /-- Show the program counter. -/
  | pc
  /-- Show what commands there are. -/
  | help
  /-- Leave. -/
  | exit
  /-- Anything else. -/
  | unknown
deriving DecidableEq

namespace Command

/-- The command that some words spell. -/
def ofWords : List String → Command
  | [] => nothing
  | ["trace", "on"] => trace true
  | ["trace", "off"] => trace false
  | ["step"] => step
  | ["s"] => step
  | ["run"] => run
  | ["r"] => run
  | ["reset"] => reset
  | ["regs"] => registers
  | ["mem"] => memory
  | ["text"] => text
  | ["pc"] => pc
  | ["help"] => help
  | ["exit"] => exit
  | _ => unknown

/-- The command on an input line. -/
def parse (line : String) : Command :=
  ofWords ((Text.words line.toList).map String.ofList)

/-- What commands there are. -/
def helpText : String :=
  String.intercalate "\n"
    ["step, s       execute one instruction",
     "run, r        execute until the program finishes",
     "reset         restart the program",
     "regs          show the registers",
     "mem           show the data memory in use",
     "text          show the program",
     "pc            show the program counter",
     "trace on|off  print each instruction before it executes",
     "help          show this message",
     "exit          quit"]

end Command
end Mips.Debugger
