import Mips.Source.Grammar

/-!
# Listings

A source text is read line by line.  A comment runs from the first `#` of a line
to its end, and a line with nothing but blanks and a comment is skipped.  Every
other line is kept together with its number, counted from one over all lines, and
with its text, so that whatever is wrong with it can be pointed at.
-/

namespace Mips

/-- Something about one line of a source text. -/
structure Located (α : Type) where
  /-- The line's number, counted from one. -/
  number : Nat
  /-- The line's text without its comment and the blanks at its ends. -/
  text : String
  value : α
deriving DecidableEq

namespace Located

/-- Says something else about the same line. -/
def withValue {α β : Type} (located : Located α) (value : β) : Located β :=
  ⟨located.number, located.text, value⟩

end Located

/-- The text of a line without its comment and the blanks at its ends. -/
def cleanLine (cs : List Char) : List Char :=
  Text.trim (cs.takeWhile (· ≠ '#'))

/-- The clean text of every line that has one, with the line's number. -/
def cleanLines (source : List Char) : List (Nat × List Char) :=
  (((Text.lines source).map cleanLine).zipIdx 1).filterMap fun (text, number) =>
    if text = [] then none else some (number, text)

/-- The lines of a source text. -/
abbrev Listing := List (Located Line)

namespace Listing

/-- Reads one line. -/
def readLine (number : Nat) (text : List Char) :
    Except (Located SyntaxError) (Located Line) :=
  match Line.parse text with
  | .ok line => .ok ⟨number, String.ofList text, line⟩
  | .error e => .error ⟨number, String.ofList text, e⟩

/-- Reads a source text, up to the first line that cannot be read. -/
def parse (source : String) : Except (Located SyntaxError) Listing :=
  (cleanLines source.toList).mapM fun (number, text) => readLine number text

end Listing
end Mips
