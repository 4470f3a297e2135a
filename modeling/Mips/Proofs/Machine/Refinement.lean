import Mips.Proofs.Instruction.Encoding
import Mips.Proofs.Machine.Architecture
import Mips.Proofs.Memory.Data

/-!
# The machine follows the architecture

Carrying out an operation either does what `Architecture.next` says or fails on an
access to data, and then the architecture has no next state either
(`Machine.effect_cases`).  That needs two facts about the machine: the fields of the
operation fit a word, which is so for everything that has been decoded, and the
program counter is not at the very end of the address space, which is so while the
machine is running.  `Machine.step_refines` says it of a whole step.
-/
namespace Mips

/-- An access to data that fails. -/
inductive Fault.InData : Fault → Prop
  | outOfRange (address : Address) : InData (.access (.outOfRange .data address))
  | misaligned (address : Address) : InData (.access (.misaligned .data address))

namespace DataSegment

variable {data : DataSegment} {address : Address}

theorem inData_of_slot {fault : AccessFault} (h : data.slot address = .error fault) :
    Fault.InData (.access fault) := by
  unfold DataSegment.slot at h
  dsimp only at h
  split at h
  · cases h
    exact .misaligned address
  · split at h
    · cases h
    · cases h
      exact .outOfRange address

end DataSegment

namespace Machine

variable {m : Machine}

/-! ## Parts of the view -/

theorem architecture_register (n : Nat) :
    m.architecture.register n = ((m.registers.read n).toOption.getD 0).toNat := by
  show (m.registers.values[n]?.getD 0).toNat = _
  unfold Registers.read
  cases m.registers.values[n]? <;> rfl

theorem read_eq_ok {n : Nat} (h : n < 32) :
    ∃ value, m.registers.read n = .ok value ∧ m.architecture.register n = value.toNat := by
  obtain ⟨value, hvalue⟩ : ∃ value, m.registers.values[n]? = some value :=
    ⟨_, Vector.getElem?_eq_getElem h⟩
  have hread : m.registers.read n = .ok value := by
    unfold Registers.read
    rw [hvalue]
  refine ⟨value, hread, ?_⟩
  rw [architecture_register, hread]
  rfl

theorem writable_eq_ok {n : Nat} (h : n < 32) : Registers.writable n = .ok () :=
  if_pos h

theorem architecture_word (address : Address) :
    m.architecture.word address.toNat =
      (m.data.read address).toOption.map UInt32.toNat := by
  simp [architecture, address.toNat_lt]

theorem word_of_slot {address : Address} {slot : Nat} (h : m.data.slot address = .ok slot) :
    m.architecture.word address.toNat = some (m.data.get slot).toNat := by
  rw [architecture_word, DataSegment.read_eq_of_slot h]
  rfl

theorem word_of_error {address : Address} {fault : AccessFault}
    (h : m.data.slot address = .error fault) : m.architecture.word address.toNat = none := by
  rw [architecture_word, DataSegment.read_eq_of_error h]
  rfl

/-! ## Effects as seen by a program -/

/-- An effect on the program counter alone. -/
theorem architecture_commit_pc (pc : Address) :
    (m.commit { pc }).architecture = m.architecture.goto pc.toNat :=
  rfl

/-- An effect on one register. -/
theorem architecture_commit_register {n : Nat} (hn : n < 32) (value : Word) (pc : Address) :
    (m.commit { register := some (n, value), pc }).architecture =
      (m.architecture.write n value.toNat).goto pc.toNat := by
  refine Architecture.ext (funext fun i => ?_) rfl rfl
  rw [architecture_register]
  show (((m.registers.set n value).read i).toOption.getD 0).toNat =
    if i = n ∧ n ≠ 0 then value.toNat else m.architecture.register i
  rw [Registers.read_set, architecture_register]
  by_cases h : i = n ∧ n ≠ 0
  · rw [if_pos h, if_pos ⟨h.1, h.2, hn⟩]
    rfl
  · rw [if_neg h, if_neg fun hc => h ⟨hc.1, hc.2.1⟩]

/-- An effect on one data word. -/
theorem architecture_commit_slot {address : Address} {slot : Nat}
    (h : m.data.slot address = .ok slot) (value : Word) (pc : Address) :
    (m.commit { slot := some (slot, value), pc }).architecture =
      (m.architecture.store address.toNat value.toNat).goto pc.toNat := by
  refine Architecture.ext rfl (funext fun a => ?_) rfl
  show (if a < 2 ^ 32 then
      ((m.data.set slot value).read (UInt32.ofNat a)).toOption.map UInt32.toNat else none) =
    if a = address.toNat then some value.toNat else m.architecture.word a
  by_cases ha : a < 2 ^ 32
  · have hnat : (UInt32.ofNat a).toNat = a := UInt32.toNat_ofNat_of_lt' ha
    have heq : UInt32.ofNat a = address ↔ a = address.toNat := by
      rw [← UInt32.toNat_inj, hnat]
    rw [if_pos ha, DataSegment.read_set h]
    simp only [heq]
    split
    · rfl
    · rw [← hnat, architecture_word, hnat]
  · -- no word is under such a number, neither before nor after
    have hne : a ≠ address.toNat := fun hc => ha (hc ▸ address.toNat_lt)
    rw [if_neg ha, if_neg hne]
    exact (if_neg ha).symm

/-! ## Carrying out an operation -/

/-- The operation succeeds and does what the architecture says. -/
def Follows (m : Machine) (op : Operation) : Prop :=
  ∃ effect, m.effect op = .ok effect ∧
    m.architecture.next op = some (m.commit effect).architecture

theorem assign_eq_ok {n : Nat} (hn : n < 32) (value : Word) (pc : Address) :
    assign n value pc = .ok { register := some (n, value), pc } := by
  unfold assign
  rw [writable_eq_ok hn]
  rfl

theorem toNat_jumpTarget (pc : Address) {index : Nat} (h : index < 0x4000000) :
    (jumpTarget pc index).toNat = pc.toNat / 2 ^ 28 * 2 ^ 28 + 4 * index := by
  have hpc := pc.toNat_lt
  unfold jumpTarget
  rw [UInt32.toNat_ofNat_of_lt' (by simp only [UInt32.size]; omega)]
  omega

/-- The address that a load or store computes. -/
theorem toNat_dataAddress_of_read {rs : Nat} {offset : Int} {base : Word}
    (h : m.architecture.register rs = base.toNat) :
    (base - Word.ofInt offset).toNat = m.architecture.dataAddress rs offset := by
  rw [toNat_sub_eq_wrap, toNat_ofInt, wrap_sub_wrap, Architecture.dataAddress, h]

/-- The machine finds a slot exactly where the architecture has a word. -/
theorem dataSlot_cases {rs : Nat} {offset : Int} {base : Word}
    (h : m.architecture.register rs = base.toNat) :
    (∃ slot, m.dataSlot base offset = .ok slot ∧
      m.data.slot (base - Word.ofInt offset) = .ok slot ∧
      m.architecture.word (m.architecture.dataAddress rs offset) =
        some (m.data.get slot).toNat) ∨
    ∃ fault : Fault, m.dataSlot base offset = .error fault ∧ fault.InData ∧
      m.architecture.word (m.architecture.dataAddress rs offset) = none := by
  rw [← toNat_dataAddress_of_read h]
  cases hslot : m.data.slot (base - Word.ofInt offset) with
  | error fault =>
    exact .inr ⟨.access fault, mapError_eq_error.mpr ⟨fault, hslot, rfl⟩,
      DataSegment.inData_of_slot hslot, word_of_error hslot⟩
  | ok slot => exact .inl ⟨slot, mapError_eq_ok.mpr hslot, rfl, word_of_slot hslot⟩

section
variable {op : Operation} {rd rs rt : Nat} {offset : Int}
variable (hpc : m.pc.toNat + 4 < 2 ^ 32)
include hpc

theorem toNat_following : m.following.toNat = m.pc.toNat + 4 := by
  unfold following
  rw [UInt32.toNat_add]
  exact Nat.mod_eq_of_lt hpc

/-- An operation that gives a register a value made from one other register. -/
theorem follows_assign {f : Word → Word} {g : Nat → Nat} (hrd : rd < 32) (hrs : rs < 32)
    (heffect : m.effect op = do assign rd (f (← m.registers.read rs)) m.following)
    (hnext : m.architecture.next op =
      some (m.architecture.write rd (g (m.architecture.register rs))).advance)
    (hfg : ∀ a, (f a).toNat = g a.toNat) : m.Follows op := by
  obtain ⟨a, hread, ha⟩ := read_eq_ok (m := m) hrs
  refine ⟨_, heffect.trans (bind_eq_ok.mpr ⟨a, hread, assign_eq_ok hrd _ _⟩), ?_⟩
  rw [hnext, architecture_commit_register hrd, toNat_following hpc, ha, hfg]
  rfl

/-- An operation that gives a register a value made from two other registers. -/
theorem follows_combine {f : Word → Word → Word} {g : Nat → Nat → Nat}
    (hfits : rd < 32 ∧ rs < 32 ∧ rt < 32) (heffect : m.effect op = m.combine rd rs rt f)
    (hnext : m.architecture.next op = some (m.architecture.write rd
      (g (m.architecture.register rs) (m.architecture.register rt))).advance)
    (hfg : ∀ a b, (f a b).toNat = g a.toNat b.toNat) : m.Follows op := by
  obtain ⟨hrd, hrs, hrt⟩ := hfits
  obtain ⟨a, hreada, ha⟩ := read_eq_ok (m := m) hrs
  obtain ⟨b, hreadb, hb⟩ := read_eq_ok (m := m) hrt
  refine ⟨_, heffect.trans (bind_eq_ok.mpr ⟨a, hreada, bind_eq_ok.mpr
    ⟨b, hreadb, assign_eq_ok hrd _ _⟩⟩), ?_⟩
  rw [hnext, architecture_commit_register hrd, toNat_following hpc, ha, hb, hfg]
  rfl

/-- A branch. -/
theorem follows_branch {taken : Word → Word → Bool} {p : Nat → Nat → Prop}
    [∀ a b, Decidable (p a b)] (hrs : rs < 32) (hrt : rt < 32)
    (heffect : m.effect op = m.branch rs rt offset taken)
    (hnext : m.architecture.next op =
      some (if p (m.architecture.register rs) (m.architecture.register rt) then
        m.architecture.goto (m.architecture.branchTarget offset) else m.architecture.advance))
    (htaken : ∀ a b, taken a b = true ↔ p a.toNat b.toNat) : m.Follows op := by
  obtain ⟨a, hreada, ha⟩ := read_eq_ok (m := m) hrs
  obtain ⟨b, hreadb, hb⟩ := read_eq_ok (m := m) hrt
  refine ⟨_, heffect.trans (bind_eq_ok.mpr ⟨a, hreada, bind_eq_ok.mpr ⟨b, hreadb, rfl⟩⟩), ?_⟩
  rw [hnext, architecture_commit_pc, ha, hb]
  simp only [htaken]
  split
  · rw [toNat_add_eq_wrap, toNat_ofInt, wrap_add_wrap, toNat_following hpc]
    rfl
  · rw [toNat_following hpc]
    rfl

/-- A load does what the architecture says, or both of them fail. -/
theorem effect_lw (hrt : rt < 32) (hrs : rs < 32) : m.Follows (.lw rt rs offset) ∨
    ∃ fault, m.effect (.lw rt rs offset) = .error fault ∧ fault.InData ∧
      m.architecture.next (.lw rt rs offset) = none := by
  obtain ⟨base, hread, hbase⟩ := read_eq_ok (m := m) hrs
  rcases dataSlot_cases hbase with ⟨slot, hdata, -, hword⟩ | ⟨fault, hdata, hfault, hword⟩
  · left
    refine ⟨_, bind_eq_ok.mpr ⟨base, hread, bind_eq_ok.mpr ⟨slot, hdata,
      assign_eq_ok hrt _ _⟩⟩, ?_⟩
    rw [architecture_commit_register hrt, toNat_following hpc, Architecture.next, hword]
    rfl
  · right
    refine ⟨fault, bind_eq_error.mpr (.inr ⟨base, hread, bind_eq_error.mpr (.inl hdata)⟩),
      hfault, ?_⟩
    rw [Architecture.next, hword]
    rfl

/-- A store does what the architecture says, or both of them fail. -/
theorem effect_sw (hrt : rt < 32) (hrs : rs < 32) : m.Follows (.sw rt rs offset) ∨
    ∃ fault, m.effect (.sw rt rs offset) = .error fault ∧ fault.InData ∧
      m.architecture.next (.sw rt rs offset) = none := by
  obtain ⟨base, hread, hbase⟩ := read_eq_ok (m := m) hrs
  obtain ⟨value, hreadt, hvalue⟩ := read_eq_ok (m := m) hrt
  rcases dataSlot_cases hbase with ⟨slot, hdata, hslot, hword⟩ | ⟨fault, hdata, hfault, hword⟩
  · left
    refine ⟨_, bind_eq_ok.mpr ⟨base, hread, bind_eq_ok.mpr ⟨value, hreadt,
      bind_eq_ok.mpr ⟨slot, hdata, rfl⟩⟩⟩, ?_⟩
    rw [architecture_commit_slot hslot, toNat_following hpc, toNat_dataAddress_of_read hbase,
      Architecture.next, hword, hvalue]
    rfl
  · right
    refine ⟨fault, bind_eq_error.mpr (.inr ⟨base, hread, bind_eq_error.mpr
      (.inr ⟨value, hreadt, bind_eq_error.mpr (.inl hdata)⟩)⟩), hfault, ?_⟩
    rw [Architecture.next, hword]
    rfl

/-- **Carrying out an operation.**  If its fields fit a word, an operation does what
the architecture says, or it fails on an access to data and the architecture has no
next state either. -/
theorem effect_cases (hfits : op.Fits) : m.Follows op ∨
    ∃ fault, m.effect op = .error fault ∧ op.AccessesData ∧ fault.InData ∧
      m.architecture.next op = none := by
  cases op with
  | add rd rs rt =>
    exact .inl (follows_combine hpc (g := fun a b => wrap (a + b)) hfits rfl rfl
      toNat_add_eq_wrap)
  | sub rd rs rt =>
    exact .inl (follows_combine hpc (g := fun a b => wrap (a - b)) hfits rfl rfl
      toNat_sub_eq_wrap)
  | and rd rs rt =>
    exact .inl (follows_combine hpc (g := fun a b => a &&& b) hfits rfl rfl UInt32.toNat_and)
  | or rd rs rt =>
    exact .inl (follows_combine hpc (g := fun a b => a ||| b) hfits rfl rfl UInt32.toNat_or)
  | slt rd rs rt =>
    refine .inl (follows_combine hpc (g := fun a b => if signed a < signed b then 1 else 0)
      hfits rfl rfl fun a b => ?_)
    rw [signed_toNat, signed_toNat]
    split <;> rfl
  | sll rd rt shift =>
    exact .inl (follows_assign hpc (g := fun a => a * 2 ^ shift % 2 ^ 32) hfits.1 hfits.2.1 rfl
      rfl fun a => toNat_shiftLeft a hfits.2.2)
  | srl rd rt shift =>
    exact .inl (follows_assign hpc (g := fun a => a / 2 ^ shift) hfits.1 hfits.2.1 rfl
      rfl fun a => toNat_shiftRight a hfits.2.2)
  | jr rs =>
    obtain ⟨target, hread, htarget⟩ := read_eq_ok (m := m) hfits
    refine .inl ⟨{ pc := target }, bind_eq_ok.mpr ⟨target, hread, rfl⟩, ?_⟩
    rw [architecture_commit_pc, ← htarget]
    rfl
  | addi rt rs immediate =>
    refine .inl (follows_assign hpc (g := fun a => wrap (a + immediate)) hfits.2.1 hfits.1 rfl
      rfl fun a => ?_)
    rw [toNat_add_eq_wrap, toNat_ofInt, wrap_add_wrap]
  | lw rt rs offset =>
    exact (effect_lw hpc hfits.2.1 hfits.1).imp_right
      fun ⟨fault, hfault, hdata, hnext⟩ => ⟨fault, hfault, trivial, hdata, hnext⟩
  | sw rt rs offset =>
    exact (effect_sw hpc hfits.2.1 hfits.1).imp_right
      fun ⟨fault, hfault, hdata, hnext⟩ => ⟨fault, hfault, trivial, hdata, hnext⟩
  | beq rs rt offset =>
    refine .inl (follows_branch hpc (p := fun a b => a = b) hfits.1 hfits.2.1 rfl rfl
      fun a b => ?_)
    rw [beq_iff_eq, UInt32.toNat_inj]
  | bne rs rt offset =>
    refine .inl (follows_branch hpc (p := fun a b => a ≠ b) hfits.1 hfits.2.1 rfl rfl
      fun a b => ?_)
    rw [bne_iff_ne, Ne, Ne, UInt32.toNat_inj]
  | j index =>
    refine .inl ⟨{ pc := jumpTarget m.pc index }, rfl, ?_⟩
    rw [architecture_commit_pc, toNat_jumpTarget m.pc hfits]
    rfl
  | jal index =>
    refine .inl ⟨_, assign_eq_ok (by decide) m.following (jumpTarget m.pc index), ?_⟩
    rw [architecture_commit_register (by decide), toNat_jumpTarget m.pc hfits,
      toNat_following hpc]
    rfl

end

end Machine
end Mips
