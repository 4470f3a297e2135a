import Mips.Log

/-!
# Debugger output

What a debugger puts out: texts for the two output streams and log records, in the
order in which they come up.  Each of the three can be read off on its own.
-/

namespace Mips.Debugger

/-- A piece of output. -/
inductive Output where
  /-- Text for the standard output. -/
  | out (text : String)
  /-- Text for the standard error stream. -/
  | err (text : String)
  | log (record : Log.Record)
deriving DecidableEq

namespace Output

/-- What a piece of output adds to the standard output. -/
def stdout : Output → String
  | out text => text
  | err _ => ""
  | log _ => ""

/-- What a piece of output adds to the standard error stream, log records left
aside. -/
def stderr : Output → String
  | out _ => ""
  | err text => text
  | log _ => ""

/-- What a piece of output adds to the log. -/
def record? : Output → Option Log.Record
  | out _ => none
  | err _ => none
  | log record => some record

end Output
end Mips.Debugger
