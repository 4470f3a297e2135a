import Mips.Text.Numeral

/-!
# Registers

The machine has 32 general-purpose registers.  Each has a number and a name, and
source text may use either behind a dollar sign.  `Register` is a register as
written; `Register.index?` finds the machine register it stands for, if there is
one.

Main statement: the table in which names are looked up and the table from which they
are shown are the same (`Register.numberOfName?_eq_some_iff`).
-/

namespace Mips

/-- A register as it is written in source text, without the dollar sign. -/
inductive Register where
  /-- A register given by a number below 256. -/
  | numbered (number : Nat)
  /-- A register given by a name, known or not. -/
  | named (name : String)
deriving DecidableEq

namespace Register

/-- The number of machine registers. -/
def count : Nat := 32

/-- The register that always holds zero. -/
def zero : Nat := 0

/-- The stack pointer. -/
def stackPointer : Nat := 29

/-- The register that receives the return address of a call. -/
def returnAddress : Nat := 31

/-- The names by which the machine registers are shown, in the order of their
numbers. -/
def names : List String :=
  ["zero", "at", "v0", "v1", "a0", "a1", "a2", "a3", "t0", "t1", "t2", "t3",
   "t4", "t5", "t6", "t7", "s0", "s1", "s2", "s3", "s4", "s5", "s6", "s7",
   "t8", "t9", "k0", "k1", "gp", "sp", "fp", "ra"]

/-- The number that a register text denotes: decimal digits, behind at most one
plus sign, of a value below 256. -/
def number? (text : List Char) : Option Nat :=
  let digits := match text with
    | '+' :: digits => digits
    | digits => digits
  (Numeral.nat? 10 digits).filter (· < 256)

/-- The register that a token names.  Dollar signs in front are dropped; what
follows is a number if it reads as one, and otherwise a name. -/
def ofToken (token : List Char) : Register :=
  let text := token.dropWhile (· == '$')
  match number? text with
  | some n => .numbered n
  | none => .named (String.ofList text)

/-- The number of the machine register that a name stands for. -/
def numberOfName? : String → Option Nat
  | "zero" => some 0
  | "at" => some 1
  | "v0" => some 2
  | "v1" => some 3
  | "a0" => some 4
  | "a1" => some 5
  | "a2" => some 6
  | "a3" => some 7
  | "t0" => some 8
  | "t1" => some 9
  | "t2" => some 10
  | "t3" => some 11
  | "t4" => some 12
  | "t5" => some 13
  | "t6" => some 14
  | "t7" => some 15
  | "s0" => some 16
  | "s1" => some 17
  | "s2" => some 18
  | "s3" => some 19
  | "s4" => some 20
  | "s5" => some 21
  | "s6" => some 22
  | "s7" => some 23
  | "t8" => some 24
  | "t9" => some 25
  | "k0" => some 26
  | "k1" => some 27
  | "gp" => some 28
  | "sp" => some 29
  | "fp" => some 30
  | "ra" => some 31
  | _ => none

/-- The machine register that a written register stands for. -/
def index? : Register → Option Nat
  | .numbered n => if n < count then some n else none
  | .named name => numberOfName? name

/-- A written register with its dollar sign. -/
def text : Register → String
  | .numbered n => "$" ++ Numeral.decimal n
  | .named name => "$" ++ name

/-- The name of machine register `n`, with its dollar sign.  A number that no
machine register has stands for itself. -/
def display (n : Nat) : String :=
  match names[n]? with
  | some name => "$" ++ name
  | none => "$" ++ Numeral.decimal n

/-! ## Names that are looked up and names that are shown -/

theorem getElem?_names_of_numberOfName? {name : String} {n : Nat}
    (h : numberOfName? name = some n) : names[n]? = some name := by
  unfold numberOfName? at h
  split at h <;> cases h <;> rfl

theorem numberOfName?_of_getElem?_names : ∀ n < count,
    names[n]?.bind numberOfName? = some n := by
  decide

/-- **The two tables of names agree**: a register is found by the name that it is shown
by, and by no other. -/
theorem numberOfName?_eq_some_iff {name : String} {n : Nat} :
    numberOfName? name = some n ↔ names[n]? = some name := by
  constructor
  · exact getElem?_names_of_numberOfName?
  · intro h
    have hn : n < count := (List.getElem?_eq_some_iff.mp h).1
    have hfound := numberOfName?_of_getElem?_names n hn
    rwa [h] at hfound

end Register
end Mips
