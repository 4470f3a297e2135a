import Mips.Text.Blank

/-!
# Tokens

A line of source text is a sequence of tokens with blanks between them.
`Lexeme.next?` reads the longest token at the front of a text and `Tokens.ofLine`
reads all of them, each with its place in the line.  Places are counted in the
bytes of the line's UTF-8 form.

Main statements: a lexeme is a non-empty piece off the front of the text
(`Lexeme.text_append_rest`, `Lexeme.text_ne_nil`), so reading a line comes to an
end.
-/

namespace Mips

/-- The kinds of token. -/
inductive Terminal where
  | openParen
  | closeParen
  | comma
  | colon
  /-- `0x` and hexadecimal digits, behind at most one minus sign. -/
  | hexadecimal
  /-- Decimal digits, behind at most one minus sign. -/
  | decimal
  /-- A letter, an underscore or a point, then more of these and digits. -/
  | identifier
  /-- A dollar sign, then letters and digits. -/
  | register
deriving DecidableEq

namespace Terminal

/-- The kinds of token in the order in which messages list them. -/
def all : List Terminal :=
  [openParen, closeParen, comma, colon, hexadecimal, decimal, identifier, register]

/-- A kind of token as messages show it. -/
def display : Terminal → String
  | openParen => "\"(\""
  | closeParen => "\")\""
  | comma => "\",\""
  | colon => "\":\""
  | hexadecimal => "r#\"-?0[xX][0-9a-fA-F]+\"#"
  | decimal => "r#\"-?[0-9]+\"#"
  | identifier => "r#\"[A-Za-z_.][A-Za-z0-9_.]*\"#"
  | register => "r#\"\\\\$[A-Za-z0-9]+\"#"

end Terminal

/-! ## Character classes -/

namespace Text

/-- The decimal digits. -/
def isDigit (c : Char) : Bool :=
  '0' ≤ c && c ≤ '9'

/-- The hexadecimal digits in either case. -/
def isHexDigit (c : Char) : Bool :=
  isDigit c || ('a' ≤ c && c ≤ 'f') || ('A' ≤ c && c ≤ 'F')

/-- The letters of the English alphabet. -/
def isLetter (c : Char) : Bool :=
  ('a' ≤ c && c ≤ 'z') || ('A' ≤ c && c ≤ 'Z')

/-- The characters of a register name. -/
def isAlphanumeric (c : Char) : Bool :=
  isLetter c || isDigit c

/-- The characters that an identifier can start with. -/
def isNameStart (c : Char) : Bool :=
  isLetter c || c == '_' || c == '.'

/-- The characters that an identifier goes on with. -/
def isNamePart (c : Char) : Bool :=
  isNameStart c || isDigit c

/-- The number of bytes in the UTF-8 form of a text. -/
def byteSize (cs : List Char) : Nat :=
  cs.foldr (fun c size => c.utf8Size + size) 0

end Text

/-! ## Lexemes -/

/-- A token at the front of a text, and the text behind it. -/
structure Lexeme where
  terminal : Terminal
  text : List Char
  rest : List Char
deriving DecidableEq

namespace Lexeme

/-- The longest run of characters of a class at the front of a text, behind what
has been read of the token already. -/
def run? (terminal : Terminal) (front : List Char) (isPart : Char → Bool) (cs : List Char) :
    Option Lexeme :=
  match cs.takeWhile isPart with
  | [] => none
  | part => some ⟨terminal, front ++ part, cs.dropWhile isPart⟩

/-- A hexadecimal number without its sign, behind `front`. -/
def hexadecimal? (front : List Char) : List Char → Option Lexeme
  | '0' :: 'x' :: rest => run? .hexadecimal (front ++ ['0', 'x']) Text.isHexDigit rest
  | '0' :: 'X' :: rest => run? .hexadecimal (front ++ ['0', 'X']) Text.isHexDigit rest
  | _ => none

/-- A number without its sign, behind `front`.  The hexadecimal reading is the
longer one whenever there is one. -/
def number? (front cs : List Char) : Option Lexeme :=
  match hexadecimal? front cs with
  | some lexeme => some lexeme
  | none => run? .decimal front Text.isDigit cs

/-- The longest token at the front of a text. -/
def next? : List Char → Option Lexeme
  | [] => none
  | '(' :: rest => some ⟨.openParen, ['('], rest⟩
  | ')' :: rest => some ⟨.closeParen, [')'], rest⟩
  | ',' :: rest => some ⟨.comma, [','], rest⟩
  | ':' :: rest => some ⟨.colon, [':'], rest⟩
  | '$' :: rest => run? .register ['$'] Text.isAlphanumeric rest
  | '-' :: rest => number? ['-'] rest
  | c :: rest =>
    if Text.isNameStart c then
      some ⟨.identifier, c :: rest.takeWhile Text.isNamePart, rest.dropWhile Text.isNamePart⟩
    else number? [] (c :: rest)

theorem run?_eq_some {terminal : Terminal} {front cs : List Char} {isPart : Char → Bool}
    {lexeme : Lexeme} (h : run? terminal front isPart cs = some lexeme) :
    lexeme.text ++ lexeme.rest = front ++ cs ∧ lexeme.text ≠ [] := by
  unfold run? at h
  split at h
  · cases h
  · next part hpart =>
    cases h
    refine ⟨?_, fun hnil => hpart (List.append_eq_nil_iff.mp hnil).2⟩
    rw [List.append_assoc, List.takeWhile_append_dropWhile]

theorem number?_eq_some {front cs : List Char} {lexeme : Lexeme}
    (h : number? front cs = some lexeme) :
    lexeme.text ++ lexeme.rest = front ++ cs ∧ lexeme.text ≠ [] := by
  unfold number? at h
  split at h
  · next hhex =>
    cases h
    unfold hexadecimal? at hhex
    split at hhex
    · simpa using run?_eq_some hhex
    · simpa using run?_eq_some hhex
    · cases hhex
  · exact run?_eq_some h

theorem next?_eq_some {cs : List Char} {lexeme : Lexeme} (h : next? cs = some lexeme) :
    lexeme.text ++ lexeme.rest = cs ∧ lexeme.text ≠ [] := by
  unfold next? at h
  split at h
  · cases h
  · cases h; simp
  · cases h; simp
  · cases h; simp
  · cases h; simp
  · simpa using run?_eq_some h
  · simpa using number?_eq_some h
  · split at h
    · cases h; simp [List.takeWhile_append_dropWhile]
    · simpa using number?_eq_some h

/-- Nothing of the text is lost. -/
theorem text_append_rest {cs : List Char} {lexeme : Lexeme} (h : next? cs = some lexeme) :
    lexeme.text ++ lexeme.rest = cs :=
  (next?_eq_some h).1

/-- A token has at least one character. -/
theorem text_ne_nil {cs : List Char} {lexeme : Lexeme} (h : next? cs = some lexeme) :
    lexeme.text ≠ [] :=
  (next?_eq_some h).2

theorem length_rest_lt {cs : List Char} {lexeme : Lexeme} (h : next? cs = some lexeme) :
    lexeme.rest.length < cs.length := by
  have happ := congrArg List.length (text_append_rest h)
  have hpos := List.length_pos_iff.mpr (text_ne_nil h)
  rw [List.length_append] at happ
  omega

/-- A token behind blanks leaves less of the text than there was. -/
theorem length_rest_lt_of_dropWhile {cs rest : List Char} {c : Char} {lexeme : Lexeme}
    (hblank : cs.dropWhile Text.isBlank = c :: rest) (hnext : next? (c :: rest) = some lexeme) :
    lexeme.rest.length < cs.length := by
  have hlt := length_rest_lt hnext
  have hle : (cs.dropWhile Text.isBlank).length ≤ cs.length :=
    (List.dropWhile_sublist _).length_le
  rw [hblank] at hle
  omega

end Lexeme

/-! ## The tokens of a line -/

/-- A token in its line. -/
structure Token where
  terminal : Terminal
  text : List Char
  /-- The place of its first byte. -/
  start : Nat
deriving DecidableEq

/-- The place just past the last byte of a token. -/
def Token.stop (token : Token) : Nat :=
  token.start + Text.byteSize token.text

/-- The tokens of a line, as far as they can be read. -/
structure Tokens where
  list : List Token
  /-- The place where no token can be read, if there is one. -/
  invalid? : Option Nat
deriving DecidableEq

namespace Tokens

/-- Reads the tokens of a text that starts at `place` in its line, behind those in
`done`, the last of which comes first. -/
def readFrom (place : Nat) (cs : List Char) (done : List Token) : Tokens :=
  let start := place + Text.byteSize (cs.takeWhile Text.isBlank)
  match _ : cs.dropWhile Text.isBlank with
  | [] => ⟨done.reverse, none⟩
  | c :: rest =>
    match _ : Lexeme.next? (c :: rest) with
    | none => ⟨done.reverse, some start⟩
    | some lexeme =>
      let token : Token := ⟨lexeme.terminal, lexeme.text, start⟩
      readFrom token.stop lexeme.rest (token :: done)
termination_by cs.length
decreasing_by exact Lexeme.length_rest_lt_of_dropWhile ‹_› ‹_›

/-- The tokens of a line. -/
def ofLine (cs : List Char) : Tokens :=
  readFrom 0 cs []

end Tokens
end Mips
