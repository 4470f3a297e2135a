/-!
# Blanks

Which characters count as white space (`isBlank`), how a text loses the blanks
at its two ends (`trim`) or gains spaces in front (`alignRight`), and how a text is
cut into pieces at separators (`pieces`): at line feeds into lines, at blanks into
words.
-/

namespace Mips.Text

/-- The Unicode characters with the property `White_Space`. -/
def isBlank (c : Char) : Bool :=
  let n := c.toNat
  (0x09 ≤ n && n ≤ 0x0D) || n == 0x20 || n == 0x85 || n == 0xA0 || n == 0x1680 ||
    (0x2000 ≤ n && n ≤ 0x200A) || n == 0x2028 || n == 0x2029 || n == 0x202F ||
    n == 0x205F || n == 0x3000

/-- The text without the blanks at its two ends. -/
def trim (cs : List Char) : List Char :=
  ((cs.dropWhile isBlank).reverse.dropWhile isBlank).reverse

/-- Adds one character in front of a text that is already cut: the piece it
belongs to, and the pieces behind that one. -/
def cut (isSeparator : Char → Bool) (c : Char) (done : List Char × List (List Char)) :
    List Char × List (List Char) :=
  if isSeparator c then ([], done.1 :: done.2) else (c :: done.1, done.2)

/-- The pieces of a text between its separators.  Two separators in a row have an
empty piece between them, and there is always at least one piece. -/
def pieces (isSeparator : Char → Bool) (cs : List Char) : List (List Char) :=
  let done := cs.foldr (cut isSeparator) ([], [])
  done.1 :: done.2

/-- The pieces between line feeds. -/
def lines (cs : List Char) : List (List Char) :=
  pieces (· == '\n') cs

/-- The maximal runs of characters that are not blank. -/
def words (cs : List Char) : List (List Char) :=
  (pieces isBlank cs).filter (· ≠ [])

/-- The text with spaces in front, as many as it takes to make it `width`
characters long. -/
def alignRight (width : Nat) (text : String) : String :=
  String.ofList (List.replicate (width - text.length) ' ') ++ text

end Mips.Text
