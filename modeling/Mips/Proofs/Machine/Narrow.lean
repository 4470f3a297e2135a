import Mips.Proofs.Machine.Capacity
import Mips.Proofs.Machine.Faults

/-!
# Narrow arithmetic

The machine computes with integers of any size and hardly ever asks whether a result fits.  A
processor has to: its integers have 32 bits, a difference of addresses must not be negative, a
word cannot be shifted by more bits than it has, and an array has no element behind its end.
`Machine.narrowStep` is a step of such a processor.  Where a result is meant to wrap around, as
in a sum of words, it does so here as well, and steps are counted as before.  Everything else
is computed exactly and has to fit, and a step in which something does not fit is stuck, with
neither an answer nor a fault.

Main statement: a narrow machine is never stuck and does the same as the machine itself, in
every step (`Machine.narrowStep_eq`) and through any run (`Machine.narrowAfter_eq`).  The
reasons lie far apart: offsets come out of sixteen bits of a word (`fits_of_decode`), no
segment is larger than 1 MiB, and the slot of an address is looked up before it is used.
-/
namespace Mips

/-! ## Numbers that fit -/

/-- An integer that 32 bits with a sign can hold. -/
def FitsInt32 (value : Int) : Prop :=
  -2 ^ 31 ≤ value ∧ value < 2 ^ 31

/-- An integer that a word can hold. -/
def FitsWord (value : Int) : Prop :=
  0 ≤ value ∧ value < 2 ^ 32

instance : DecidablePred FitsInt32 := fun _ => inferInstanceAs (Decidable (_ ∧ _))

instance : DecidablePred FitsWord := fun _ => inferInstanceAs (Decidable (_ ∧ _))

/-- A computation that can be stuck, beside having an answer or a fault. -/
abbrev Narrow (α : Type) := ExceptT Fault Option α

namespace Narrow

/-- Goes on with a value, and is stuck if there is none. -/
def given {α : Type} (value? : Option α) : Narrow α :=
  ExceptT.lift value?

/-- Goes on if `p` holds, and is stuck otherwise. -/
def must (p : Prop) [Decidable p] : Narrow Unit :=
  given (guard p)

/-- An integer in 32 bits with a sign. -/
def int32? (value : Int) : Option Int :=
  if FitsInt32 value then some value else none

/-- An integer in a word. -/
def word? (value : Int) : Option Word :=
  if FitsWord value then some (Word.ofInt value) else none

end Narrow

/-! ## The narrow machine -/

namespace Machine

open Narrow

variable (m : Machine)

/-- The word at the program counter. -/
def narrowFetch : Narrow Word :=
  if m.pc < textBase then throw (.access (.outOfRange .text m.pc))
  else do
    let offset ← given (word? (m.pc.toNat - textBase.toNat))
    if offset.toNat % 4 ≠ 0 then throw (.access (.misaligned .text m.pc))
    else if offset.toNat / 4 < m.text.size then given m.text.words[offset.toNat / 4]?
    else throw (.access (.outOfRange .text m.pc))

/-- The value of register `n`. -/
def narrowRead (n : Nat) : Narrow Word :=
  given m.registers.values[n]?

/-- The effect of giving register `n` a value. -/
def narrowAssign (n : Nat) (value : Word) (pc : Address) : Narrow Effect := do
  must (n < Register.count)
  return { register := some (n, value), pc }

/-- The effect of giving `rd` a function of `rs` and `rt`. -/
def narrowCombine (rd rs rt : Nat) (f : Word → Word → Word) : Narrow Effect := do
  let a ← m.narrowRead rs
  let b ← m.narrowRead rt
  narrowAssign rd (f a b) m.following

/-- The effect of giving `rd` the value of `rt` shifted by some bits. -/
def narrowShift (rd rt shift : Nat) (f : Nat → Nat → Nat) : Narrow Effect := do
  let a ← m.narrowRead rt
  must (shift < 32)
  narrowAssign rd (UInt32.ofNat (f a.toNat shift)) m.following

/-- The slot of the data word `offset` bytes below the address `base`. -/
def narrowDataSlot (base : Word) (offset : Int) : Narrow Nat := do
  let displacement ← given (int32? (-offset))
  let address := base + Word.ofInt displacement
  let distance ← given (word? (dataBase.toNat - address.toNat))
  if distance.toNat % 4 ≠ 0 then throw (.access (.misaligned .data address))
  else if distance.toNat / 4 < m.data.size then return distance.toNat / 4
  else throw (.access (.outOfRange .data address))

/-- The effect of a branch on a condition between `rs` and `rt`. -/
def narrowBranch (rs rt : Nat) (offset : Int) (taken : Word → Word → Bool) : Narrow Effect := do
  let a ← m.narrowRead rs
  let b ← m.narrowRead rt
  if taken a b then do
    let displacement ← given (int32? (4 * offset))
    return { pc := m.following + Word.ofInt displacement }
  else return { pc := m.following }

/-- The address of word `index` in the region of the program counter. -/
def narrowTarget (index : Nat) : Narrow Address :=
  given (word? (m.pc.toNat / 0x10000000 * 0x10000000 + index * 4))

/-- What an operation would change, or why it fails. -/
def narrowEffect : Operation → Narrow Effect
  | .add rd rs rt => m.narrowCombine rd rs rt fun a b => a + b
  | .sub rd rs rt => m.narrowCombine rd rs rt fun a b => a - b
  | .and rd rs rt => m.narrowCombine rd rs rt fun a b => a &&& b
  | .or rd rs rt => m.narrowCombine rd rs rt fun a b => a ||| b
  | .slt rd rs rt =>
    m.narrowCombine rd rs rt fun a b => if Word.signed a < Word.signed b then 1 else 0
  | .sll rd rt shift => m.narrowShift rd rt shift fun a n => a <<< n
  | .srl rd rt shift => m.narrowShift rd rt shift fun a n => a >>> n
  | .jr rs => do
    let target ← m.narrowRead rs
    return { pc := target }
  | .addi rt rs immediate => do
    let a ← m.narrowRead rs
    let summand ← given (int32? immediate)
    narrowAssign rt (a + Word.ofInt summand) m.following
  | .lw rt rs offset => do
    let base ← m.narrowRead rs
    let slot ← m.narrowDataSlot base offset
    let value ← given m.data.words[slot]?
    narrowAssign rt value m.following
  | .sw rt rs offset => do
    let base ← m.narrowRead rs
    let value ← m.narrowRead rt
    let slot ← m.narrowDataSlot base offset
    return { slot := some (slot, value), pc := m.following }
  | .beq rs rt offset => m.narrowBranch rs rt offset fun a b => a == b
  | .bne rs rt offset => m.narrowBranch rs rt offset fun a b => a != b
  | .j index => do
    let target ← m.narrowTarget index
    return { pc := target }
  | .jal index => do
    let target ← m.narrowTarget index
    narrowAssign Register.returnAddress m.following target

/-- What the instruction at the program counter would change, or why it fails. -/
def narrowAttempt : Narrow Effect := do
  let word ← m.narrowFetch
  let operation ← ExceptT.mk (some ((decode word).mapError Fault.undecodable))
  m.narrowEffect operation

/-- Makes a change, for which the register and the slot have to exist. -/
def narrowCommit (effect : Effect) : Option Machine := do
  guard (∀ write ∈ effect.register, write.1 < Register.count)
  guard (∀ write ∈ effect.slot, write.1 < m.data.size)
  return m.commit effect

/-- The machine with its status brought in line with its program counter. -/
def narrowRefreshed : Option Machine := do
  let stop ← word? (textBase.toNat + 4 * m.text.size)
  return { m with
    status := if textBase ≤ m.pc && m.pc < stop then .running else .finished }

/-- One step, with the fault that it met. -/
def narrowStep : Option (Machine × Option Fault) :=
  if m.isFinished then some (m, none)
  else do
    match ← m.narrowAttempt.run with
    | .ok effect =>
      let next ← m.narrowCommit effect
      let next ← next.counted.narrowRefreshed
      return (next, none)
    | .error fault =>
      let next ← (if m.config.permissive then m.skipped else m).narrowRefreshed
      return (next, some fault)

/-- The machine before its first step. -/
def narrowReset : Option Machine := do
  guard (Register.stackPointer < Register.count)
  narrowRefreshed { m with
    data := m.data.cleared
    registers := Registers.initial dataBase
    pc := textBase
    steps := 0 }

/-- The machine after a call. -/
def narrowCall : Call → Option Machine
  | .step => m.narrowStep.map Prod.fst
  | .reset => m.narrowReset

/-- The machine after calls, the first of the list first. -/
def narrowAfter (calls : List Call) : Option Machine :=
  calls.foldlM narrowCall m

end Machine

/-! ## A narrow machine is never stuck -/

namespace Narrow

/-- A computation that is not stuck and ends as `plain` does. -/
def Agrees {α : Type} (narrow : Narrow α) (plain : Except Fault α) : Prop :=
  narrow.run = some plain

variable {α β : Type}

theorem agrees_bind {x : Narrow α} {y : Except Fault α} {f : α → Narrow β}
    {g : α → Except Fault β} (hx : Agrees x y) (hf : ∀ a, y = .ok a → Agrees (f a) (g a)) :
    Agrees (x >>= f) (y >>= g) := by
  unfold Agrees at hx ⊢
  rw [ExceptT.run_bind, hx]
  cases y with
  | error fault => rfl
  | ok a => exact hf a rfl

/-- What is given adds nothing to what follows. -/
theorem agrees_given_bind {value? : Option α} {a : α} {f : α → Narrow β} {y : Except Fault β}
    (hvalue : value? = some a) (hf : Agrees (f a) y) : Agrees (given value? >>= f) y := by
  subst hvalue
  exact hf

theorem agrees_must_bind {p : Prop} [Decidable p] {f : Unit → Narrow β} {y : Except Fault β}
    (hp : p) (hf : Agrees (f ()) y) : Agrees (must p >>= f) y :=
  agrees_given_bind (if_pos hp) hf

theorem int32?_eq_some {value : Int} (h : FitsInt32 value) : int32? value = some value :=
  if_pos h

theorem word?_eq_some {value : Int} {w : Word} (h : value = w.toNat) : word? value = some w := by
  have hw := w.toNat_lt
  have hfits : FitsWord value := by
    unfold FitsWord
    omega
  unfold word?
  rw [if_pos hfits, h]
  exact congrArg some UInt32.ofNat_toNat

theorem word?_sub {a b : Word} (h : b.toNat ≤ a.toNat) :
    word? (a.toNat - b.toNat) = some (a - b) := by
  apply word?_eq_some
  rw [UInt32.toNat_sub_of_le _ _ (UInt32.le_iff_toNat_le.mpr h)]
  omega

end Narrow

namespace Machine

open Narrow

variable {m : Machine} {op : Operation} {rd rs rt shift index : Nat} {offset : Int}

theorem agrees_fetch (m : Machine) : Agrees m.narrowFetch m.fetch := by
  unfold narrowFetch fetch TextSegment.read
  by_cases hlow : m.pc < textBase
  · rw [if_pos hlow, if_pos hlow]
    rfl
  · have hle : textBase.toNat ≤ m.pc.toNat := by
      rw [UInt32.lt_iff_toNat_lt] at hlow
      omega
    rw [if_neg hlow, if_neg hlow]
    refine agrees_given_bind (word?_sub hle) ?_
    dsimp only
    split
    · rfl
    · cases hword : m.text.words[(m.pc - textBase).toNat / 4]? with
      | none =>
        have hnot : ¬ (m.pc - textBase).toNat / 4 < m.text.size :=
          Nat.not_lt.mpr (Array.getElem?_eq_none_iff.mp hword)
        rw [if_neg hnot]
        rfl
      | some word =>
        have hlt : (m.pc - textBase).toNat / 4 < m.text.size :=
          (Array.getElem?_eq_some_iff.mp hword).1
        rw [if_pos hlt]
        rfl

theorem agrees_read {n : Nat} (h : n < 32) : Agrees (m.narrowRead n) (m.registers.read n) := by
  have hvalue : m.registers.values[n]? = some m.registers.values[n] := Vector.getElem?_eq_getElem h
  unfold narrowRead Registers.read
  rw [hvalue]
  rfl

theorem agrees_assign {n : Nat} (h : n < 32) (value : Word) (pc : Address) :
    Agrees (narrowAssign n value pc) (assign n value pc) := by
  rw [assign_eq_ok h]
  exact agrees_must_bind h rfl

theorem agrees_combine (hfits : rd < 32 ∧ rs < 32 ∧ rt < 32) (f : Word → Word → Word) :
    Agrees (m.narrowCombine rd rs rt f) (m.combine rd rs rt f) :=
  agrees_bind (agrees_read hfits.2.1) fun _ _ =>
    agrees_bind (agrees_read hfits.2.2) fun _ _ => agrees_assign hfits.1 _ _

theorem agrees_shift (hfits : rd < 32 ∧ rt < 32 ∧ shift < 32) (f : Nat → Nat → Nat) :
    Agrees (m.narrowShift rd rt shift f) (m.registers.read rt >>= fun a =>
      assign rd (UInt32.ofNat (f a.toNat (shift % 32))) m.following) := by
  rw [Nat.mod_eq_of_lt hfits.2.2]
  exact agrees_bind (agrees_read hfits.2.1) fun _ _ =>
    agrees_must_bind hfits.2.2 (agrees_assign hfits.1 _ _)

/-- The offset that a load or store turns round. -/
theorem fitsInt32_neg (h : FitsImmediate offset) : FitsInt32 (-offset) := by
  obtain ⟨hlow, hhigh⟩ := h
  unfold FitsInt32
  omega

/-- The offset that a branch turns into bytes. -/
theorem fitsInt32_four_mul (h : FitsImmediate offset) : FitsInt32 (4 * offset) := by
  obtain ⟨hlow, hhigh⟩ := h
  unfold FitsInt32
  omega

theorem add_ofInt_neg (base : Word) (offset : Int) :
    base + Word.ofInt (-offset) = base - Word.ofInt offset := by
  rw [Word.ofInt_eq, Word.ofInt_eq, UInt32.ofInt_neg, UInt32.sub_eq_add_neg]

theorem agrees_dataSlot (h : FitsImmediate offset) (base : Word) :
    Agrees (m.narrowDataSlot base offset) (m.dataSlot base offset) := by
  have hle : (base - Word.ofInt offset).toNat ≤ dataBase.toNat :=
    Nat.le_of_lt_succ (UInt32.toNat_lt _)
  unfold narrowDataSlot dataSlot DataSegment.slot
  refine agrees_given_bind (int32?_eq_some (fitsInt32_neg h)) ?_
  rw [add_ofInt_neg]
  refine agrees_given_bind (word?_sub hle) ?_
  dsimp only
  split
  · rfl
  · split <;> rfl

theorem agrees_branch (hrs : rs < 32) (hrt : rt < 32) (hoffset : FitsImmediate offset)
    (taken : Word → Word → Bool) :
    Agrees (m.narrowBranch rs rt offset taken) (m.branch rs rt offset taken) := by
  refine agrees_bind (agrees_read hrs) fun a _ => agrees_bind (agrees_read hrt) fun b _ => ?_
  cases taken a b with
  | true => exact agrees_given_bind (int32?_eq_some (fitsInt32_four_mul hoffset)) rfl
  | false => rfl

theorem agrees_target_bind {α : Type} {f : Address → Narrow α} {y : Except Fault α}
    (h : index < 0x4000000) (hf : Agrees (f (jumpTarget m.pc index)) y) :
    Agrees (m.narrowTarget index >>= f) y := by
  have htarget : (m.pc.toNat / 0x10000000 * 0x10000000 + index * 4 : Int) =
      (jumpTarget m.pc index).toNat := by
    rw [toNat_jumpTarget m.pc h]
    omega
  exact agrees_given_bind (word?_eq_some htarget) hf

theorem agrees_lw (hrs : rs < 32) (hrt : rt < 32) (hoffset : FitsImmediate offset) :
    Agrees (m.narrowEffect (.lw rt rs offset)) (m.effect (.lw rt rs offset)) := by
  refine agrees_bind (agrees_read hrs) fun base _ =>
    agrees_bind (agrees_dataSlot hoffset base) fun slot hslot => ?_
  -- the slot has been looked up, so there is a word in it
  have hlt : slot < m.data.size := (DataSegment.slot_eq_ok_iff.mp (mapError_eq_ok.mp hslot)).1
  have hword : m.data.words[slot]? = some (m.data.get slot) := by
    unfold DataSegment.get
    rw [Array.getElem?_eq_getElem hlt]
    rfl
  exact agrees_given_bind hword (agrees_assign hrt _ _)

/-- **An operation that fits is never stuck.** -/
theorem agrees_effect (hfits : op.Fits) : Agrees (m.narrowEffect op) (m.effect op) := by
  cases op with
  | add | sub | and | or | slt => exact agrees_combine hfits _
  | sll | srl => exact agrees_shift hfits _
  | jr => exact agrees_bind (agrees_read hfits) fun _ _ => rfl
  | addi rt rs immediate =>
    have himmediate : FitsInt32 immediate := by
      obtain ⟨hlow, hhigh⟩ := hfits.2.2
      unfold FitsInt32
      omega
    exact agrees_bind (agrees_read hfits.1) fun _ _ =>
      agrees_given_bind (int32?_eq_some himmediate) (agrees_assign hfits.2.1 _ _)
  | lw => exact agrees_lw hfits.1 hfits.2.1 hfits.2.2
  | sw =>
    exact agrees_bind (agrees_read hfits.1) fun base _ =>
      agrees_bind (agrees_read hfits.2.1) fun _ _ =>
        agrees_bind (agrees_dataSlot hfits.2.2 base) fun _ _ => rfl
  | beq | bne => exact agrees_branch hfits.1 hfits.2.1 hfits.2.2 _
  | j => exact agrees_target_bind hfits rfl
  | jal => exact agrees_target_bind hfits (agrees_assign (by decide) _ _)

theorem agrees_attempt (m : Machine) : Agrees m.narrowAttempt m.attempt := by
  refine agrees_bind (agrees_fetch m) fun w _ => ?_
  have hdecoded : Agrees (ExceptT.mk (some ((decode w).mapError Fault.undecodable)))
      ((decode w).mapError Fault.undecodable) := rfl
  exact agrees_bind hdecoded fun op hop => agrees_effect (fits_of_decode (mapError_eq_ok.mp hop))

/-! ## Steps and runs -/

theorem narrowCommit_eq {effect : Effect} (h : m.HasRoomFor effect) :
    m.narrowCommit effect = some (m.commit effect) := by
  unfold narrowCommit
  rw [guard, if_pos h.register, guard, if_pos h.slot]
  rfl

theorem narrowRefreshed_eq (m : Machine) : m.narrowRefreshed = some m.refreshed := by
  have hend : (textBase.toNat + 4 * m.text.size : Int) = m.text.endAddress.toNat := by
    rw [m.text.toNat_endAddress, toNat_textBase]
    omega
  unfold narrowRefreshed
  rw [word?_eq_some hend]
  rfl

/-- **A step does not need integers of any size.** -/
theorem narrowStep_eq (m : Machine) : m.narrowStep = some m.step := by
  unfold narrowStep step
  split
  · rfl
  · have hagrees : m.narrowAttempt.run = some m.attempt := agrees_attempt m
    rw [hagrees]
    cases hattempt : m.attempt with
    | error fault =>
      simp only [Option.bind_eq_bind, Option.bind_some, narrowRefreshed_eq]
      rfl
    | ok effect =>
      have hroom := hasRoomFor_of_attempt hattempt
      simp only [Option.bind_eq_bind, Option.bind_some, narrowCommit_eq hroom,
        narrowRefreshed_eq]
      rfl

theorem narrowReset_eq (m : Machine) : m.narrowReset = some m.reset := by
  have hpointer : Register.stackPointer < Register.count := by decide
  unfold narrowReset
  rw [guard, if_pos hpointer, narrowRefreshed_eq]
  rfl

theorem narrowCall_eq (m : Machine) (c : Call) : m.narrowCall c = some (m.call c) := by
  cases c with
  | step => exact congrArg (Option.map Prod.fst) m.narrowStep_eq
  | reset => exact m.narrowReset_eq

/-- **A run does not need integers of any size either.** -/
theorem narrowAfter_eq (m : Machine) (calls : List Call) :
    m.narrowAfter calls = some (m.after calls) := by
  induction calls generalizing m with
  | nil => rfl
  | cons c calls ih =>
    have hcons : m.narrowAfter (c :: calls) =
        (m.narrowCall c).bind fun m' => m'.narrowAfter calls := List.foldlM_cons
    rw [hcons, narrowCall_eq]
    exact ih (m.call c)

end Machine
end Mips
