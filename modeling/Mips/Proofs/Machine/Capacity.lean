import Mips.Proofs.Machine.Invariant
import Mips.Proofs.Machine.Runs
import Mips.Proofs.Memory.Data

/-!
# Machines with more memory

Two machines with the same program that differ in the sizes of their segments
(`Machine.Outsizes`) take the same steps as long as those of the smaller machine succeed.
An operation that succeeds on the smaller machine has found its data word in the segment
of that machine, and the larger segment has the same slot for it; a slot that only the
larger machine has is never written, so it stays zero and does not show among the words in
use (`Machine.run_with_more_memory`).
-/
namespace Mips

theorem TextSegment.read_congr {text text' : TextSegment} (h : text'.words = text.words) :
    text'.read = text.read := by
  unfold read
  rw [h]

theorem TextSegment.contains_congr {text text' : TextSegment} (h : text'.words = text.words) :
    text'.contains = text.contains := by
  unfold contains endAddress size
  rw [h]

namespace Machine

variable {m m' : Machine} {op : Operation} {effect : Effect}

/-! ## What an operation writes -/

/-- The register and the slot that an effect writes exist. -/
structure HasRoomFor (m : Machine) (effect : Effect) : Prop where
  register : ∀ write ∈ effect.register, write.1 < Register.count
  slot : ∀ write ∈ effect.slot, write.1 < m.data.size

theorem hasRoomFor_goto (m : Machine) (pc : Address) : m.HasRoomFor { pc } :=
  ⟨nofun, nofun⟩

theorem hasRoomFor_of_assign {n : Nat} {value : Word} {pc : Address}
    (h : assign n value pc = .ok effect) : m.HasRoomFor effect := by
  obtain ⟨_, hwritable, h⟩ := bind_eq_ok.mp h
  have hn : n < Register.count := by
    unfold Registers.writable at hwritable
    split at hwritable
    · assumption
    · cases hwritable
  cases h
  refine ⟨?_, nofun⟩
  rintro _ ⟨⟩
  exact hn

theorem hasRoomFor_of_combine {rd rs rt : Nat} {f : Word → Word → Word}
    (h : m.combine rd rs rt f = .ok effect) : m.HasRoomFor effect := by
  obtain ⟨a, -, h⟩ := bind_eq_ok.mp h
  obtain ⟨b, -, h⟩ := bind_eq_ok.mp h
  exact hasRoomFor_of_assign h

theorem hasRoomFor_of_branch {rs rt : Nat} {offset : Int} {taken : Word → Word → Bool}
    (h : m.branch rs rt offset taken = .ok effect) : m.HasRoomFor effect := by
  obtain ⟨a, -, h⟩ := bind_eq_ok.mp h
  obtain ⟨b, -, h⟩ := bind_eq_ok.mp h
  cases h
  exact hasRoomFor_goto m _

/-- **An operation writes nothing that does not exist.** -/
theorem hasRoomFor_of_effect (h : m.effect op = .ok effect) : m.HasRoomFor effect := by
  cases op with
  | add | sub | and | or | slt => exact hasRoomFor_of_combine h
  | sll | srl | addi =>
    obtain ⟨a, -, h⟩ := bind_eq_ok.mp h
    exact hasRoomFor_of_assign h
  | lw =>
    obtain ⟨base, -, h⟩ := bind_eq_ok.mp h
    obtain ⟨i, -, h⟩ := bind_eq_ok.mp h
    exact hasRoomFor_of_assign h
  | sw =>
    obtain ⟨base, -, h⟩ := bind_eq_ok.mp h
    obtain ⟨stored, -, h⟩ := bind_eq_ok.mp h
    obtain ⟨i, hi, h⟩ := bind_eq_ok.mp h
    cases h
    refine ⟨nofun, ?_⟩
    rintro _ ⟨⟩
    exact (DataSegment.slot_eq_ok_iff.mp (mapError_eq_ok.mp hi)).1
  | jr =>
    obtain ⟨target, -, h⟩ := bind_eq_ok.mp h
    cases h
    exact hasRoomFor_goto m _
  | beq | bne => exact hasRoomFor_of_branch h
  | j =>
    cases h
    exact hasRoomFor_goto m _
  | jal => exact hasRoomFor_of_assign h

theorem hasRoomFor_of_attempt (h : m.attempt = .ok effect) : m.HasRoomFor effect := by
  obtain ⟨w, -, h⟩ := bind_eq_ok.mp h
  obtain ⟨op, -, h⟩ := bind_eq_ok.mp h
  exact hasRoomFor_of_effect h

/-! ## The smaller and the larger machine -/

/-- `m'` has at least as much room for data as `m`, and is otherwise in the same state. -/
structure Outsizes (m' m : Machine) : Prop where
  words : m'.text.words = m.text.words
  data : m'.data.Extends m.data
  registers : m'.registers = m.registers
  pc : m'.pc = m.pc
  status : m'.status = m.status
  steps : m'.steps = m.steps

theorem Outsizes.fetch_eq (h : m'.Outsizes m) : m'.fetch = m.fetch := by
  unfold fetch
  rw [TextSegment.read_congr h.words, h.pc]

/-- Only loads and stores look at more than the registers and the program counter. -/
theorem effect_congr (hregisters : m'.registers = m.registers) (hpc : m'.pc = m.pc)
    (hop : ¬ op.AccessesData) : m'.effect op = m.effect op := by
  obtain ⟨config, text, data, registers, pc, status, steps⟩ := m
  obtain ⟨config', text', data', registers', pc', status', steps'⟩ := m'
  cases hregisters
  cases hpc
  cases op with
  | lw | sw => exact absurd trivial hop
  | _ => rfl

theorem Outsizes.dataSlot_eq_ok (h : m'.Outsizes m) {base : Word} {offset : Int} {slot : Nat}
    (hslot : m.dataSlot base offset = .ok slot) : m'.dataSlot base offset = .ok slot :=
  mapError_eq_ok.mpr (h.data.slot_eq_ok (mapError_eq_ok.mp hslot))

/-- What the smaller machine can carry out, the larger one can, with the same effect. -/
theorem Outsizes.effect_eq_ok (h : m'.Outsizes m) (heffect : m.effect op = .ok effect) :
    m'.effect op = .ok effect := by
  have hread : ∀ n, m'.registers.read n = m.registers.read n := fun n => by rw [h.registers]
  have hfollowing : m'.following = m.following := congrArg (· + 4) h.pc
  cases op with
  | lw rt rs offset =>
    obtain ⟨base, hbase, heffect⟩ := bind_eq_ok.mp heffect
    obtain ⟨slot, hslot, heffect⟩ := bind_eq_ok.mp heffect
    refine bind_eq_ok.mpr ⟨base, (hread rs).trans hbase,
      bind_eq_ok.mpr ⟨slot, h.dataSlot_eq_ok hslot, ?_⟩⟩
    rw [h.data.get_eq, hfollowing]
    exact heffect
  | sw rt rs offset =>
    obtain ⟨base, hbase, heffect⟩ := bind_eq_ok.mp heffect
    obtain ⟨value, hvalue, heffect⟩ := bind_eq_ok.mp heffect
    obtain ⟨slot, hslot, heffect⟩ := bind_eq_ok.mp heffect
    refine bind_eq_ok.mpr ⟨base, (hread rs).trans hbase, bind_eq_ok.mpr ⟨value,
      (hread rt).trans hvalue, bind_eq_ok.mpr ⟨slot, h.dataSlot_eq_ok hslot, ?_⟩⟩⟩
    rw [hfollowing]
    exact heffect
  | _ => exact (effect_congr h.registers h.pc id).trans heffect

theorem Outsizes.attempt_eq_ok (h : m'.Outsizes m) (hattempt : m.attempt = .ok effect) :
    m'.attempt = .ok effect := by
  obtain ⟨w, hfetch, hattempt⟩ := bind_eq_ok.mp hattempt
  obtain ⟨op, hdecode, heffect⟩ := bind_eq_ok.mp hattempt
  exact bind_eq_ok.mpr ⟨w, h.fetch_eq.trans hfetch,
    bind_eq_ok.mpr ⟨op, hdecode, h.effect_eq_ok heffect⟩⟩

/-- A change that the smaller machine has room for. -/
theorem Outsizes.commit (h : m'.Outsizes m) (hroom : m.HasRoomFor effect) :
    (m'.commit effect).Outsizes (m.commit effect) := by
  obtain ⟨register, written, pc⟩ := effect
  refine ⟨h.words, ?_, ?_, rfl, h.status, h.steps⟩
  · cases written with
    | none => exact h.data
    | some write => exact h.data.set (hroom.slot write rfl) write.2
  · cases register with
    | none => exact h.registers
    | some write => exact congrArg (·.set write.1 write.2) h.registers

theorem Outsizes.counted (h : m'.Outsizes m) : m'.counted.Outsizes m.counted :=
  ⟨h.words, h.data, h.registers, h.pc, h.status, congrArg (· + 1) h.steps⟩

theorem Outsizes.refreshed (h : m'.Outsizes m) : m'.refreshed.Outsizes m.refreshed := by
  refine ⟨h.words, h.data, h.registers, h.pc, ?_, h.steps⟩
  unfold Machine.refreshed
  rw [TextSegment.contains_congr h.words, h.pc]

/-- A step that the smaller machine can take, the larger one can, with the same result. -/
theorem Outsizes.step (h : m'.Outsizes m) (hok : m.step.2 = none) :
    m'.step.2 = none ∧ m'.step.1.Outsizes m.step.1 := by
  cases hstatus : m.status with
  | finished =>
    rw [step_of_isFinished (isFinished_iff.mpr hstatus),
      step_of_isFinished (isFinished_iff.mpr (h.status.trans hstatus))]
    exact ⟨rfl, h⟩
  | running =>
    cases hattempt : m.attempt with
    | error fault =>
      rw [step_of_attempt_error hstatus hattempt] at hok
      cases hok
    | ok effect =>
      rw [step_of_attempt_ok hstatus hattempt,
        step_of_attempt_ok (h.status.trans hstatus) (h.attempt_eq_ok hattempt)]
      exact ⟨rfl, (h.commit (hasRoomFor_of_attempt hattempt)).counted.refreshed⟩

/-! ## From the start -/

/-- Of two machines that hold the same program, the one with the larger data segment
outsizes the other. -/
theorem outsizes_of_load {program : Array Word} {config config' : Config}
    (h : load program config = .ok m) (h' : load program config' = .ok m')
    (hsize : config.dataSize ≤ config'.dataSize) : m'.Outsizes m := by
  obtain ⟨text, data, htext, hdata, rfl⟩ := load_eq_ok_iff.mp h
  obtain ⟨text', data', htext', hdata', rfl⟩ := load_eq_ok_iff.mp h'
  refine Outsizes.refreshed ⟨?_, ⟨?_, fun slot => ?_⟩, rfl, rfl, rfl, rfl⟩
  · exact (TextSegment.words_of_load htext').trans (TextSegment.words_of_load htext).symm
  · rw [DataSegment.size_of_zeroed hdata, DataSegment.size_of_zeroed hdata']
    exact Nat.div_le_div_right hsize
  · exact (DataSegment.get_of_zeroed hdata' slot).trans (DataSegment.get_of_zeroed hdata slot).symm

/-- **More memory never changes a successful run.**  Let a program be loaded into two
machines, the second with at least as much memory for data as the first, the sizes of the
text segments being whatever they are.  As long as the steps of the first machine succeed,
so do those of the second, and behind each of them the two have the same registers, program
counter, status, count of steps and data words in use, and every data word that can be
read in the first machine reads the same in the second. -/
theorem run_with_more_memory {program : Array Word} {config config' : Config}
    (h : load program config = .ok m) (h' : load program config' = .ok m')
    (hsize : config.dataSize ≤ config'.dataSize) {k : Nat} (hok : m.Succeeds k) :
    m'.Succeeds k ∧ ∀ j ≤ k,
      (m'.afterSteps j).registers = (m.afterSteps j).registers ∧
      (m'.afterSteps j).pc = (m.afterSteps j).pc ∧
      (m'.afterSteps j).status = (m.afterSteps j).status ∧
      (m'.afterSteps j).steps = (m.afterSteps j).steps ∧
      (m'.afterSteps j).data.contents = (m.afterSteps j).data.contents ∧
      ∀ address value, (m.afterSteps j).data.read address = .ok value →
        (m'.afterSteps j).data.read address = .ok value := by
  obtain ⟨hok', houtsizes⟩ := lockstep (R := fun m m' => m'.Outsizes m)
    (fun _ _ h hnone => h.step hnone) (outsizes_of_load h h' hsize) hok
  refine ⟨hok', fun j hj => ?_⟩
  obtain ⟨-, hdata, hregisters, hpc, hstatus, hsteps⟩ := houtsizes j hj
  exact ⟨hregisters, hpc, hstatus, hsteps, hdata.contents_eq,
    fun address value hread => hdata.read_eq_ok hread⟩

theorem run_with_more_memory_stores_and_loads :
    ∃ m m', load #[0x20080005, 0xAFA80000, 0x8FA90000] { dataSize := 4 } = .ok m ∧
      load #[0x20080005, 0xAFA80000, 0x8FA90000] { textSize := 16, dataSize := 64 } = .ok m' ∧
      m.Succeeds 3 ∧ m'.Succeeds 3 ∧
      (m'.afterSteps 3).registers = (m.afterSteps 3).registers ∧
      (m'.afterSteps 3).data.contents = [(0xFFFFFFFF, 5)] := by
  have hrun : (load #[0x20080005, 0xAFA80000, 0x8FA90000] { dataSize := 4 }).toOption.map
      (fun m => (m.step.2, (m.afterSteps 1).step.2, (m.afterSteps 2).step.2,
        (m.afterSteps 3).data.contents)) = some (none, none, none, [(0xFFFFFFFF, 5)]) := by
    decide +kernel
  have hlarger : (load #[0x20080005, 0xAFA80000, 0x8FA90000]
      { textSize := 16, dataSize := 64 }).toOption.isSome = true := by
    decide +kernel
  obtain ⟨m, hload, hsteps⟩ := Option.map_eq_some_iff.mp hrun
  obtain ⟨m', hload'⟩ := Option.isSome_iff_exists.mp hlarger
  rw [toOption_eq_some] at hload hload'
  simp only [Prod.mk.injEq] at hsteps
  obtain ⟨hfirst, hsecond, hthird, hcontents⟩ := hsteps
  have hok : m.Succeeds 3 := by
    intro j hj
    obtain rfl | rfl | rfl : j = 0 ∨ j = 1 ∨ j = 2 := by omega
    · exact hfirst
    · exact hsecond
    · exact hthird
  obtain ⟨hok', hsame⟩ := run_with_more_memory hload hload' (by decide) hok
  obtain ⟨hregisters, -, -, -, hcontents', -⟩ := hsame 3 (Nat.le_refl 3)
  exact ⟨m, m', hload, hload', hok, hok', hregisters, hcontents'.trans hcontents⟩

end Machine
end Mips
