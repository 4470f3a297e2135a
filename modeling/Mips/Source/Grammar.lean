import Mips.Source.Line
import Mips.Source.Token
import Mips.Text.Numeral

/-!
# The grammar of a line

A line is a label and a colon, or a statement, or the first and then the second.
Operands stand behind one another with a comma, blanks, or both in between.  The
grammar is read token by token: `Reading` is what has been read so far,
`Reading.expected` lists the kinds of token that can come next, `Reading.read`
takes one token and `Reading.finish` the end of the line.

Two rules about blanks are no matter of the token sequence.  An operand that
touches the one before it is refused as soon as a token that could follow it, or
the end of the line, has come up; operands that touch the mnemonic are refused at
the end of the line.  Both come after the test whether the token that came up can
stand there at all.
-/

namespace Mips

/-- Why a line cannot be read. -/
inductive SyntaxError where
  /-- No token can be read at a place. -/
  | invalidToken (place : Nat)
  /-- A token stands where only tokens of other kinds can. -/
  | unexpectedToken (token : Token) (expected : List Terminal)
  /-- The line ends where a token has to follow. -/
  | unexpectedEnd (place : Nat) (expected : List Terminal)
  /-- The operands touch the mnemonic. -/
  | mnemonicTouchesOperand
  /-- Two operands touch. -/
  | operandsTouch
deriving DecidableEq

namespace SyntaxError

/-- Several kinds of token as an enumeration. -/
def enumeration : List Terminal → String
  | [] => ""
  | [last] => last.display
  | [next, last] => next.display ++ " or " ++ last.display
  | next :: rest => next.display ++ ", " ++ enumeration rest

/-- The line of a message that lists what could have stood there. -/
def expectation (expected : List Terminal) : String :=
  "\nExpected one of " ++ enumeration expected

/-- The wording of a syntax error. -/
def message : SyntaxError → String
  | invalidToken place => "Invalid token at " ++ Numeral.decimal place
  | unexpectedToken token expected =>
    "Unrecognized token `" ++ String.ofList token.text ++ "` found at " ++
      Numeral.decimal token.start ++ ":" ++ Numeral.decimal token.stop ++ expectation expected
  | unexpectedEnd place expected =>
    "Unrecognized EOF found at " ++ Numeral.decimal place ++ expectation expected
  | mnemonicTouchesOperand => "expected whitespace after the mnemonic"
  | operandsTouch => "operands must be separated by a comma or whitespace"

end SyntaxError

/-- A statement whose last operand is still being read. -/
structure Body where
  label? : Option String
  mnemonic : String
  /-- Whether the first operand touches the mnemonic. -/
  tight : Bool
  /-- The operands before the last one, the latest first. -/
  done : List Operand
  /-- Whether the last operand touches the one before it. -/
  touches : Bool
deriving DecidableEq

/-- What has been read of a line. -/
inductive Reading where
  /-- Nothing. -/
  | start
  /-- An identifier, which a colon can turn into a label. -/
  | name (token : Token)
  /-- A label and its colon. -/
  | labelled (label : String)
  /-- A label, its colon and a mnemonic. -/
  | mnemonic (label : String) (token : Token)
  /-- Operands, of which the last is complete and ends at a place. -/
  | operand (body : Body) (last : Operand) (stop : Nat)
  /-- Operands, of which the last is a number that ends at a place, and that a
  parenthesis can turn into an offset. -/
  | number (body : Body) (text : String) (stop : Nat)
  /-- Operands, of which the last is an offset with nothing in its parentheses. -/
  | offset (body : Body) (text : String)
  /-- Operands, of which the last is an offset whose parenthesis is still open. -/
  | base (body : Body) (text : String) (register : Register)
  /-- Operands and a comma. -/
  | comma (body : Body)
deriving DecidableEq

namespace Reading

/-- The kinds of token that start an operand. -/
def operandStarts : List Terminal :=
  [.hexadecimal, .decimal, .identifier, .register]

/-- The kinds of token that can come next. -/
def expected : Reading → List Terminal
  | start => [.identifier]
  | name _ => .colon :: operandStarts
  | labelled _ => [.identifier]
  | mnemonic _ _ => operandStarts
  | operand _ _ _ => .comma :: operandStarts
  | number _ _ _ => .openParen :: .comma :: operandStarts
  | offset _ _ => [.register]
  | base _ _ _ => [.closeParen]
  | comma _ => operandStarts

/-- Starts the last operand of `body` with a token that can start one. -/
def startOperand? (body : Body) (token : Token) : Option Reading :=
  match token.terminal with
  | .hexadecimal => some (number body (String.ofList token.text) token.stop)
  | .decimal => some (number body (String.ofList token.text) token.stop)
  | .identifier => some (operand body (.label (String.ofList token.text)) token.stop)
  | .register => some (operand body (.register (Register.ofToken token.text)) token.stop)
  | _ => none

/-- Starts the first operand behind a mnemonic. -/
def firstOperand? (label? : Option String) (head token : Token) : Option Reading :=
  startOperand?
    { label?
      mnemonic := String.ofList head.text
      tight := token.start == head.stop
      done := []
      touches := false } token

/-- Goes on behind the complete operand `last`, which ends at `stop`. -/
def afterOperand? (body : Body) (last : Operand) (stop : Nat) (token : Token) : Option Reading :=
  if token.terminal = .comma then some (comma { body with done := last :: body.done })
  else startOperand?
    { body with done := last :: body.done, touches := token.start == stop } token

/-- Whether the last operand is complete and touches the one before it. -/
def touching : Reading → Bool
  | operand body _ _ => body.touches
  | number body _ _ => body.touches
  | _ => false

/-- What has been read with one more token, if a token of its kind can stand
there. -/
def next? : Reading → Token → Option Reading
  | start, token => if token.terminal = .identifier then some (name token) else none
  | name head, token =>
    if token.terminal = .colon then some (labelled (String.ofList head.text))
    else firstOperand? none head token
  | labelled label, token =>
    if token.terminal = .identifier then some (mnemonic label token) else none
  | mnemonic label head, token => firstOperand? (some label) head token
  | operand body last stop, token => afterOperand? body last stop token
  | number body text stop, token =>
    if token.terminal = .openParen then some (offset body text)
    else afterOperand? body (.number text) stop token
  | offset body text, token =>
    if token.terminal = .register then some (base body text (Register.ofToken token.text))
    else none
  | base body text register, token =>
    if token.terminal = .closeParen then
      some (operand body (.offset text register) token.stop)
    else none
  | comma body, token => startOperand? { body with touches := false } token

/-- Whether a token completes the last operand by coming behind it. -/
def completes (reading : Reading) (token : Token) : Bool :=
  match reading with
  | number _ _ _ => token.terminal ≠ .openParen
  | _ => true

/-- Takes one token. -/
def read (reading : Reading) (token : Token) : Except SyntaxError Reading :=
  match reading.next? token with
  | none => .error (.unexpectedToken token reading.expected)
  | some next =>
    if reading.touching && reading.completes token then .error .operandsTouch else .ok next

/-- The line with its last operand, unless the rules about blanks refuse it. -/
def close (body : Body) (last : Operand) : Except SyntaxError Line :=
  if body.touches then .error .operandsTouch
  else if body.tight then .error .mnemonicTouchesOperand
  else .ok (.statement body.label? ⟨body.mnemonic, (last :: body.done).reverse⟩)

/-- Takes the end of the line, which stands at a place. -/
def finish (reading : Reading) (place : Nat) : Except SyntaxError Line :=
  match reading with
  | name token => .ok (.statement none ⟨String.ofList token.text, []⟩)
  | labelled label => .ok (.label label)
  | mnemonic label token => .ok (.statement (some label) ⟨String.ofList token.text, []⟩)
  | operand body last _ => close body last
  | number body text _ => close body (.number text)
  | _ => .error (.unexpectedEnd place reading.expected)

end Reading

/-- The line that tokens spell.  A place where no token can be read counts once
every token before it has been taken. -/
def Line.ofTokens (tokens : Tokens) : Except SyntaxError Line := do
  let reading ← tokens.list.foldlM Reading.read Reading.start
  match tokens.invalid? with
  | some place => .error (.invalidToken place)
  | none => reading.finish ((tokens.list.getLast?.map Token.stop).getD 0)

/-- Reads a line of source text. -/
def Line.parse (cs : List Char) : Except SyntaxError Line :=
  Line.ofTokens (Tokens.ofLine cs)

end Mips
