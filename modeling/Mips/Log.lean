/-!
# Log records

The program reports on its work in records of a level and a text.  A reader
listens from a threshold upward.
-/

namespace Mips.Log

/-- How much a record matters. -/
inductive Level where
  | trace | debug | info | warn | error
deriving DecidableEq

/-- The place of a level in the order from least to most. -/
def Level.rank : Level → Nat
  | .trace => 0
  | .debug => 1
  | .info => 2
  | .warn => 3
  | .error => 4

/-- The name of a level. -/
def Level.name : Level → String
  | .trace => "TRACE"
  | .debug => "DEBUG"
  | .info => "INFO"
  | .warn => "WARN"
  | .error => "ERROR"

/-- One report. -/
structure Record where
  level : Level
  text : String
deriving DecidableEq

/-- Whether a reader who listens from `threshold` upward hears records of a
level. -/
def Level.heardFrom (level threshold : Level) : Bool :=
  threshold.rank ≤ level.rank

/-- The records that a reader hears who listens from `threshold` upward. -/
def heard (threshold : Level) (records : List Record) : List Record :=
  records.filter fun r => r.level.heardFrom threshold

end Mips.Log
