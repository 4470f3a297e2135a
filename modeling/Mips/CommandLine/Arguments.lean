import Mips.Text.Numeral

/-!
# Command-line arguments

Arguments are flags such as `--hex`, options with a value such as `--output FILE`,
and files.  A name stands behind two dashes or more.  The value of an option is the
next argument, or it stands behind the name and one or more equals signs; what is
attached to a flag in this way is ignored.  An option with a short name may also be
written `-o FILE` or `-oFILE`, again with equals signs in between or without.  The
next argument is no value if it begins with a dash and does not consist of it; an
option that has a usual value can be given without one in front of such an argument.
A lone `--` is skipped, and whatever follows it is a file.  No flag and no option
may be given twice.
-/

namespace Mips.CommandLine

/-- What a flag or an option does with a value. -/
inductive ValueRule where
  /-- It is a flag: a value that is attached to it says nothing. -/
  | ignored
  /-- It has no meaning without a value. -/
  | required
  /-- Without a value it stands for its usual one. -/
  | optional
deriving DecidableEq

/-- A flag or an option that a command line understands. -/
structure Switch where
  /-- The name behind two dashes. -/
  long : String
  /-- The name behind one dash. -/
  short? : Option Char := none
  value : ValueRule := .ignored

/-- Why a command line cannot be understood. -/
inductive UsageError where
  | unknownArgument (argument : String)
  | missingValue (switch : String)
  | repeated (switch : String)
  | invalidNumber (switch value : String)
  | missingFile
  | unknownProgram

/-- The wording of a usage error. -/
def UsageError.message : UsageError → String
  | .unknownArgument argument => "unexpected argument '" ++ argument ++ "'"
  | .missingValue switch => "'--" ++ switch ++ "' needs a value"
  | .repeated switch => "'--" ++ switch ++ "' is given more than once"
  | .invalidNumber switch value => "invalid value '" ++ value ++ "' for '--" ++ switch ++ "'"
  | .missingFile => "no file is given"
  | .unknownProgram => "no such program"

/-- A command line taken apart. -/
structure Arguments where
  /-- The flags and options that are given, by their long names, with the values
  that are given for them. -/
  given : List (String × Option String) := []
  files : List String := []

namespace Arguments

/-- Notes a flag or an option. -/
def add (arguments : Arguments) (name : String) (value? : Option String) :
    Except UsageError Arguments :=
  if (arguments.given.lookup name).isSome then .error (.repeated name)
  else .ok { arguments with given := (name, value?) :: arguments.given }

/-- Notes a file. -/
def addFile (arguments : Arguments) (file : String) : Arguments :=
  { arguments with files := arguments.files ++ [file] }

/-- The value behind a name that is written with equals signs. -/
def valueOf (text : List Char) : String :=
  String.ofList (text.dropWhile (· = '='))

/-- The name and the attached value of an argument behind its dashes. -/
def splitLong (text : List Char) : String × Option String :=
  (String.ofList (text.takeWhile (· ≠ '=')),
    match text.dropWhile (· ≠ '=') with
    | [] => none
    | value => some (valueOf value))

/-- The value attached to a short option, with or without equals signs. -/
def splitShort : List Char → Option String
  | [] => none
  | value => some (valueOf value)

/-- Whether an argument is read as a switch: it begins with a dash and goes on. -/
def isSwitch (argument : String) : Bool :=
  match argument.toList with
  | '-' :: _ :: _ => true
  | _ => false

/-- The switch that an argument names, with the value attached to it.  The answer
is `none` for an argument that is a file. -/
def switch? (switches : List Switch) (argument : String) :
    Except UsageError (Option (Switch × Option String)) :=
  match argument.toList with
  | '-' :: '-' :: text =>
    let (name, value?) := splitLong (text.dropWhile (· = '-'))
    match switches.find? (·.long == name) with
    | some switch => .ok (some (switch, value?))
    | none => .error (.unknownArgument argument)
  | '-' :: letter :: text =>
    match switches.find? (·.short? == some letter) with
    | some switch => .ok (some (switch, splitShort text))
    | none => .error (.unknownArgument argument)
  | _ => .ok none

/-- A command line that has been taken apart up to some argument. -/
structure Scan where
  arguments : Arguments := {}
  /-- The option whose value the next argument can be. -/
  waiting? : Option Switch := none
  /-- Whether everything that follows is a file. -/
  filesOnly : Bool := false

namespace Scan

/-- Notes a flag or an option. -/
def add (scan : Scan) (switch : Switch) (value? : Option String) : Except UsageError Scan := do
  return { scan with arguments := ← scan.arguments.add switch.long value?, waiting? := none }

/-- Goes on without a value for the option that waits for one. -/
def settle (scan : Scan) : Except UsageError Scan :=
  match scan.waiting? with
  | none => .ok scan
  | some switch =>
    if switch.value = .optional then scan.add switch none
    else .error (.missingValue switch.long)

/-- Reads an argument that is not the value of the option in front of it. -/
def read (switches : List Switch) (scan : Scan) (argument : String) : Except UsageError Scan :=
  if argument = "--" then .ok { scan with filesOnly := true }
  else if scan.filesOnly then
    .ok { scan with arguments := scan.arguments.addFile argument }
  else
    match switch? switches argument with
    | .error error => .error error
    | .ok none => .ok { scan with arguments := scan.arguments.addFile argument }
    | .ok (some (switch, value?)) =>
      if switch.value = .ignored then scan.add switch none
      else if value?.isSome then scan.add switch value?
      else .ok { scan with waiting? := some switch }

/-- Goes on with one argument. -/
def next (switches : List Switch) (scan : Scan) (argument : String) : Except UsageError Scan := do
  if isSwitch argument then (← scan.settle).read switches argument
  else
    match scan.waiting? with
    | some switch => scan.add switch (some argument)
    | none => scan.read switches argument

end Scan

/-- Takes a command line apart. -/
def parse (switches : List Switch) (arguments : List String) : Except UsageError Arguments := do
  let scan ← arguments.foldlM (Scan.next switches) {}
  return (← scan.settle).arguments

/-- Whether a flag is given. -/
def hasFlag (arguments : Arguments) (name : String) : Bool :=
  (arguments.given.lookup name).isSome

/-- The value that is given for an option. -/
def value? (arguments : Arguments) (name : String) : Option String :=
  (arguments.given.lookup name).join

/-- The value of an option that is a number of at most 64 bits, behind at most one
plus sign. -/
def natValue? (arguments : Arguments) (name : String) : Except UsageError (Option Nat) :=
  match arguments.value? name with
  | none => .ok none
  | some value =>
    let digits := match value.toList with
      | '+' :: digits => digits
      | digits => digits
    match (Numeral.nat? 10 digits).filter (· < 0x10000000000000000) with
    | some n => .ok (some n)
    | none => .error (.invalidNumber name value)

/-- The one file of a command line. -/
def file (arguments : Arguments) : Except UsageError String :=
  match arguments.files with
  | [] => .error .missingFile
  | [file] => .ok file
  | _ :: file :: _ => .error (.unknownArgument file)

end Arguments
end Mips.CommandLine
