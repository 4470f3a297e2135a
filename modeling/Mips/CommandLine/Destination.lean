import Mips.Text.Blank

/-!
# Where a written file goes

A path is read from a directory that holds nothing but plain files
(`Destination.ofPath`).  It leads to a file of that directory, to one of the two
output streams, or out of the directory; or no file can be written there.
-/

namespace Mips.CommandLine

/-- Why no file can be written under a path. -/
inductive WriteError where
  | notFound
  | notDirectory
  | isDirectory
  | nameTooLong
deriving DecidableEq

/-- Where a path leads. -/
inductive Destination where
  /-- A file of the directory, whether it is there already or not. -/
  | file (name : String)
  | standardOutput
  | standardError
  /-- A file that is not in the directory. -/
  | outside
deriving DecidableEq

namespace Destination

/-- The longest name of a file, in bytes. -/
def maxNameSize : Nat := 255

/-- The longest path, in bytes. -/
def maxPathSize : Nat := 4095

/-- Whether a name stands for the directory it is read in, or for the one above. -/
def isRelative (name : String) : Bool :=
  name == "." || name == ".."

/-- Where names lead from the top of all directories, which is a directory itself.
With a slash behind them they can only lead to a directory. -/
def fromTop (slash : Bool) (names : List String) : Except WriteError Destination :=
  if slash || names.all isRelative then .error .isDirectory
  else
    match names.filter (· ≠ ".") with
    | ["dev", "stdout"] => .ok .standardOutput
    | ["dev", "stderr"] => .ok .standardError
    | _ => .ok .outside

/-- Where names lead from a directory with some files.  A file that is not there
will be made, but a directory will not. -/
def fromHere (files : List String) (slash : Bool) : List String → Except WriteError Destination
  | [] => .error .isDirectory
  | name :: rest =>
    if name = "." then fromHere files slash rest
    else if name = ".." then
      if slash || rest.all isRelative then .error .isDirectory else .ok .outside
    else if slash && rest.isEmpty then .error .isDirectory
    else if maxNameSize < name.utf8ByteSize then .error .nameTooLong
    else if rest.isEmpty then .ok (.file name)
    else if files.contains name then .error .notDirectory
    else .error .notFound

/-- Where a path leads from a directory with some files. -/
def ofPath (files : List String) (path : String) : Except WriteError Destination :=
  let pieces := Text.pieces (· == '/') path.toList
  let names := (pieces.filter (· ≠ [])).map String.ofList
  let slash := pieces.getLast? == some []
  if path.isEmpty then .error .notFound
  else if maxPathSize < path.utf8ByteSize then .error .nameTooLong
  else if pieces.head? = some [] then fromTop slash names
  else fromHere files slash names

end Destination
end Mips.CommandLine
