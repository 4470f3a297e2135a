/-!
# Numerals

Positional numerals, written with a fixed number of digits (`fixed`) or with as
many as it takes (`decimal`), and read back digit by digit (`nat?`, `int?`).
Writing with a fixed width keeps the last digits of the number and pads with
zeros; reading takes a text of any length, accepts either letter case, and
refuses an empty text and every character that is not a digit of the base.
-/

namespace Mips.Numeral

/-- The last `width` digits of `n` in base `base`, the most significant one
first. -/
def fixed (base : Nat) : Nat → Nat → List Char
  | 0, _ => []
  | width + 1, n => fixed base width (n / base) ++ [Nat.digitChar (n % base)]

@[simp] theorem length_fixed (base width n : Nat) : (fixed base width n).length = width := by
  induction width generalizing n with
  | zero => rfl
  | succ width ih => simp [fixed, ih]

/-- An integer in decimal digits, as many as it takes, behind a minus sign if it
is negative. -/
def decimal : Int → String
  | .ofNat n => String.ofList (Nat.toDigits 10 n)
  | .negSucc n => String.ofList ('-' :: Nat.toDigits 10 (n + 1))

/-- `n` as `width` binary digits. -/
def binary (width n : Nat) : String :=
  String.ofList (fixed 2 width n)

/-- `n` as `width` hexadecimal digits in lower case. -/
def lowerHex (width n : Nat) : String :=
  String.ofList (fixed 16 width n)

/-- `n` as `width` hexadecimal digits in upper case. -/
def upperHex (width n : Nat) : String :=
  String.ofList ((fixed 16 width n).map Char.toUpper)

/-- The value of a digit, whatever base it is meant for. -/
def digitValue? (c : Char) : Option Nat :=
  if '0' ≤ c ∧ c ≤ '9' then some (c.toNat - '0'.toNat)
  else if 'a' ≤ c ∧ c ≤ 'f' then some (c.toNat - 'a'.toNat + 10)
  else if 'A' ≤ c ∧ c ≤ 'F' then some (c.toNat - 'A'.toNat + 10)
  else none

/-- The value of a digit of base `base`. -/
def digit? (base : Nat) (c : Char) : Option Nat :=
  (digitValue? c).filter (· < base)

/-- Reads the remaining digits of a numeral whose digits so far are worth
`value`. -/
def natFrom? (base : Nat) : List Char → Nat → Option Nat
  | [], value => some value
  | c :: rest, value =>
    match digit? base c with
    | some d => natFrom? base rest (value * base + d)
    | none => none

/-- The number that a non-empty run of digits denotes. -/
def nat? (base : Nat) : List Char → Option Nat
  | [] => none
  | c :: rest => natFrom? base (c :: rest) 0

/-- The number that digits behind at most one sign denote. -/
def int? (base : Nat) : List Char → Option Int
  | '-' :: digits => (nat? base digits).map fun n => -(n : Int)
  | '+' :: digits => (nat? base digits).map Int.ofNat
  | digits => (nat? base digits).map Int.ofNat

end Mips.Numeral
