import Std.Data.TreeMap
import Mips.Assembly.Error
import Mips.Word

/-!
# Labels and their addresses

A label stands for the address of the first instruction behind it, or of the place
just past the program if there is none.  `Symbols.ofListing` goes through a listing
once, counts the instructions, and gives every label the address that the count
has reached.
-/

namespace Mips

/-- The addresses of labels, in the order of their names. -/
abbrev Symbols := Std.TreeMap String Address

namespace Symbols

/-- Adds the labels of a listing whose first instruction is number `count`. -/
def define (symbols : Symbols) (count : Nat) : Listing → Except AssemblyError Symbols
  | [] => .ok symbols
  | line :: rest =>
    let following := if line.value.statement?.isSome then count + 1 else count
    match line.value.label? with
    | none => define symbols following rest
    | some name =>
      if symbols.contains name then .error (line.withValue (.duplicateLabel name))
      else define (symbols.insert name (textAddress count)) following rest

/-- The labels of a listing.  The first label that is defined a second time is an
error. -/
def ofListing (listing : Listing) : Except AssemblyError Symbols :=
  define ∅ 0 listing

end Symbols
end Mips
