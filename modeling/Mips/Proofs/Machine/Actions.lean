import Mips.Machine.Step
import Mips.Proofs.Outcome

/-!
# Operations as sequences of actions

The machine makes all checks of an operation before it changes anything.  A processor
knows no such order: it reads a register, accesses memory, writes a register and moves
its program counter, one action after another, and an action that fails leaves behind
whatever the actions before it have done.  `Action.ofOperation` spells every operation
out in that way.

The two ways agree on every machine and every operation (`Machine.perform_eq_execute`):
in each of the sequences the first action that changes something comes behind the last
one that can fail, so an operation that fails half-way has changed nothing.
-/
namespace Mips

/-- An action on a machine: it has an answer or a fault, and leaves a machine behind
in both cases. -/
abbrev Action (α : Type) := ExceptT Fault (StateM Machine) α

namespace Action

/-- Looks something up, which can fail but changes nothing. -/
def ask {α : Type} (look : Machine → Except Fault α) : Action α :=
  ExceptT.mk fun m => (look m, m)

/-- Changes the machine, which cannot fail. -/
def alter (change : Machine → Machine) : Action Unit :=
  ExceptT.mk fun m => (.ok (), change m)

/-- Reads a register. -/
def readRegister (n : Nat) : Action Word :=
  ask fun m => m.registers.read n

/-- Writes a register, if there is such a register. -/
def writeRegister (n : Nat) (value : Word) : Action Unit := do
  ask fun _ => Registers.writable n
  alter fun m => { m with registers := m.registers.set n value }

/-- Reads the data word `offset` bytes below the address `base`. -/
def loadWord (base : Word) (offset : Int) : Action Word :=
  ask fun m => (m.dataSlot base offset).map m.data.get

/-- Writes the data word `offset` bytes below the address `base`. -/
def storeWord (base : Word) (offset : Int) (value : Word) : Action Unit := do
  let slot ← ask fun m => m.dataSlot base offset
  alter fun m => { m with data := m.data.set slot value }

/-- Looks at the program counter. -/
def counter : Action Address :=
  ask fun m => .ok m.pc

/-- Moves the program counter to an address. -/
def goto (target : Address) : Action Unit :=
  alter fun m => { m with pc := target }

/-- Moves the program counter to the next instruction. -/
def advance : Action Unit :=
  alter Machine.skipped

/-- Gives `rd` a function of `rs` and `rt`. -/
def combine (rd rs rt : Nat) (f : Word → Word → Word) : Action Unit := do
  let a ← readRegister rs
  let b ← readRegister rt
  writeRegister rd (f a b)
  advance

/-- Gives `rd` a function of `rs`. -/
def transform (rd rs : Nat) (f : Word → Word) : Action Unit := do
  let a ← readRegister rs
  writeRegister rd (f a)
  advance

/-- Branches on a condition between `rs` and `rt`. -/
def branch (rs rt : Nat) (offset : Int) (taken : Word → Word → Bool) : Action Unit := do
  let a ← readRegister rs
  let b ← readRegister rt
  if taken a b then
    let pc ← counter
    goto (pc + 4 + Word.ofInt (4 * offset))
  else advance

/-- An operation as a sequence of actions. -/
def ofOperation : Operation → Action Unit
  | .add rd rs rt => combine rd rs rt fun a b => a + b
  | .sub rd rs rt => combine rd rs rt fun a b => a - b
  | .and rd rs rt => combine rd rs rt fun a b => a &&& b
  | .or rd rs rt => combine rd rs rt fun a b => a ||| b
  | .slt rd rs rt => combine rd rs rt fun a b => if Word.signed a < Word.signed b then 1 else 0
  | .sll rd rt shift => transform rd rt fun a => UInt32.ofNat (a.toNat <<< (shift % 32))
  | .srl rd rt shift => transform rd rt fun a => UInt32.ofNat (a.toNat >>> (shift % 32))
  | .jr rs => do
    let target ← readRegister rs
    goto target
  | .addi rt rs immediate => transform rt rs fun a => a + Word.ofInt immediate
  | .lw rt rs offset => do
    let base ← readRegister rs
    let value ← loadWord base offset
    writeRegister rt value
    advance
  | .sw rt rs offset => do
    let base ← readRegister rs
    let value ← readRegister rt
    storeWord base offset value
    advance
  | .beq rs rt offset => branch rs rt offset fun a b => a == b
  | .bne rs rt offset => branch rs rt offset fun a b => a != b
  | .j index => do
    let pc ← counter
    goto (jumpTarget pc index)
  | .jal index => do
    let pc ← counter
    writeRegister Register.returnAddress (pc + 4)
    let pc ← counter
    goto (jumpTarget pc index)

/-! ## Running actions -/

variable {α β : Type}

/-- The answer or fault of an action, and the machine that it leaves behind. -/
def on (action : Action α) (m : Machine) : Except Fault α × Machine :=
  action.run.run m

theorem on_ask (look : Machine → Except Fault α) (m : Machine) : (ask look).on m = (look m, m) :=
  rfl

/-- What follows an action starts on the machine that the action leaves behind, unless
the action fails. -/
theorem on_bind (first : Action α) (rest : α → Action β) (m : Machine) :
    (first >>= rest).on m = match first.on m with
      | (.ok a, m') => (rest a).on m'
      | (.error fault, m') => (.error fault, m') := by
  show (ExceptT.bindCont rest (first.on m).1).run (first.on m).2 = _
  rcases first.on m with ⟨_ | a, m'⟩ <;> rfl

theorem on_ask_bind (look : Machine → Except Fault α) (rest : α → Action β) (m : Machine) :
    (ask look >>= rest).on m = match look m with
      | .ok a => (rest a).on m
      | .error fault => (.error fault, m) := by
  rw [on_bind, on_ask]
  cases look m <;> rfl

/-- From `m`, an action does what the checks `checked` let happen: it makes the change
that passes them, or it fails and changes nothing. -/
def Commits (m : Machine) (action : Action Unit) (checked : Except Fault Effect) : Prop :=
  action.on m = match checked with
    | .ok effect => (.ok (), m.commit effect)
    | .error fault => (.error fault, m)

variable {m : Machine}

/-- Looking something up is one more check. -/
theorem commits_ask {look : Machine → Except Fault α} {rest : α → Action Unit}
    {checked : α → Except Fault Effect} (h : ∀ a, Commits m (rest a) (checked a)) :
    Commits m (ask look >>= rest) (look m >>= checked) := by
  unfold Commits
  rw [on_ask_bind]
  cases look m with
  | error fault => rfl
  | ok a => exact h a

/-- A change behind the last check is the one that has been checked, if nothing behind
it can fail. -/
theorem commits_alter {look : Machine → Except Fault α} {change : α → Machine → Machine}
    {rest : Action Unit} {effect : α → Effect}
    (hrest : ∀ a, rest.on (change a m) = (.ok (), m.commit (effect a))) :
    Commits m ((ask look >>= fun a => alter (change a)) >>= fun _ => rest)
      (look m >>= fun a => pure (effect a)) := by
  unfold Commits
  rw [on_bind, on_ask_bind]
  cases look m with
  | error fault => rfl
  | ok a => exact hrest a

theorem commits_assign {n : Nat} {value : Word} :
    Commits m (writeRegister n value >>= fun _ => advance)
      (Machine.assign n value m.following) := by
  unfold writeRegister Machine.assign
  exact commits_alter fun _ => rfl

theorem commits_combine (rd rs rt : Nat) (f : Word → Word → Word) :
    Commits m (combine rd rs rt f) (m.combine rd rs rt f) :=
  commits_ask fun _ => commits_ask fun _ => commits_assign

theorem commits_transform (rd rs : Nat) (f : Word → Word) :
    Commits m (transform rd rs f)
      (m.registers.read rs >>= fun a => Machine.assign rd (f a) m.following) :=
  commits_ask fun _ => commits_assign

theorem commits_branch (rs rt : Nat) (offset : Int) (taken : Word → Word → Bool) :
    Commits m (branch rs rt offset taken) (m.branch rs rt offset taken) := by
  refine commits_ask fun a => commits_ask fun b => ?_
  cases htaken : taken a b <;> rfl

theorem commits_lw (rt rs : Nat) (offset : Int) :
    Commits m (ofOperation (.lw rt rs offset)) (m.effect (.lw rt rs offset)) := by
  refine commits_ask fun base => ?_
  -- the access answers with the word, the check with its slot
  have hload : (m.dataSlot base offset >>= fun slot =>
      Machine.assign rt (m.data.get slot) m.following) =
      (m.dataSlot base offset).map m.data.get >>= fun value =>
        Machine.assign rt value m.following := by
    cases m.dataSlot base offset <;> rfl
  rw [hload]
  exact commits_ask fun value => commits_assign

theorem commits_sw (rt rs : Nat) (offset : Int) :
    Commits m (ofOperation (.sw rt rs offset)) (m.effect (.sw rt rs offset)) := by
  refine commits_ask fun base => commits_ask fun value => ?_
  unfold storeWord
  exact commits_alter fun slot => rfl

theorem commits_jal (index : Nat) :
    Commits m (ofOperation (.jal index)) (m.effect (.jal index)) := by
  have hlink : Commits m (writeRegister Register.returnAddress m.following >>= fun _ =>
      counter >>= fun pc => goto (jumpTarget pc index)) (m.effect (.jal index)) := by
    unfold writeRegister
    exact commits_alter fun _ => rfl
  unfold Commits ofOperation counter
  rw [on_ask_bind]
  exact hlink

/-- **Every operation commits to what has been checked**: in its sequence of actions
nothing changes before the last action that can fail. -/
theorem commits_ofOperation (m : Machine) (op : Operation) :
    Commits m (ofOperation op) (m.effect op) := by
  cases op with
  | add | sub | and | or | slt => exact commits_combine ..
  | sll | srl | addi => exact commits_transform ..
  | jr => exact commits_ask fun target => rfl
  | lw => exact commits_lw ..
  | sw => exact commits_sw ..
  | beq | bne => exact commits_branch ..
  | j => rfl
  | jal => exact commits_jal ..

end Action

namespace Machine

/-- Carries an operation out action by action, up to the first action that fails. -/
def perform (m : Machine) (op : Operation) : Machine × Option Fault :=
  match (Action.ofOperation op).on m with
  | (.ok (), m') => (m', none)
  | (.error fault, m') => (m', some fault)

/-- **Checking everything first changes nothing**: an operation ends in the same way
when its actions are taken one by one. -/
theorem perform_eq_execute (m : Machine) (op : Operation) : m.perform op = m.execute op := by
  unfold perform execute
  rw [Action.commits_ofOperation m op]
  cases m.effect op <;> rfl

end Machine
end Mips
