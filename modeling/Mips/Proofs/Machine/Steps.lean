import Mips.Proofs.Machine.Refinement
import Mips.Proofs.Memory.Text

/-!
# Steps

`Machine.Steps` lists what a step can be: nothing at all on a finished machine, an
operation that is carried out, or one of three failures.  Every step is one of these
(`Machine.steps_step`), and whoever needs to know about steps goes through the list.
What is carried out is the architecture's next state and nothing besides
(`Machine.step_refines`).
-/
namespace Mips.Machine

variable {m m' : Machine}

theorem isFinished_iff : m.isFinished = true ↔ m.status = .finished :=
  decide_eq_true_iff

/-- The machine after a step that failed. -/
def faulted (m : Machine) : Machine :=
  (if m.config.permissive then m.skipped else m).refreshed

/-- What a step of `m` can be: the machine behind it, and the fault if there was
one. -/
inductive Steps (m : Machine) : Machine → Option Fault → Prop
  /-- A finished machine stays as it is. -/
  | idle (hstatus : m.status = .finished) : Steps m m none
  /-- An operation is carried out. -/
  | carries {w : Word} {op : Operation} {effect : Effect} (hstatus : m.status = .running)
      (hfetch : m.fetch = .ok w) (hdecode : decode w = .ok op)
      (heffect : m.effect op = .ok effect)
      (hnext : m.architecture.next op = some (m.commit effect).architecture) :
      Steps m (m.commit effect).counted.refreshed none
  /-- There is no word at the program counter. -/
  | unfetched {fault : AccessFault} (hstatus : m.status = .running)
      (hread : m.text.read m.pc = .error fault) : Steps m m.faulted (some (.access fault))
  /-- The word at the program counter is no instruction. -/
  | undecodable {w : Word} {error : DecodeError} (hstatus : m.status = .running)
      (hfetch : m.fetch = .ok w) (hdecode : decode w = .error error) :
      Steps m m.faulted (some (.undecodable error))
  /-- A data word cannot be accessed. -/
  | denied {w : Word} {op : Operation} {fault : Fault} (hstatus : m.status = .running)
      (hfetch : m.fetch = .ok w) (hdecode : decode w = .ok op) (hop : op.AccessesData)
      (hfault : fault.InData) : Steps m m.faulted (some fault)

theorem fetch_eq_ok_iff {w : Word} : m.fetch = .ok w ↔
    ∃ i, m.text.words[i]? = some w ∧ m.pc.toNat = 0x400000 + 4 * i :=
  mapError_eq_ok.trans TextSegment.read_eq_ok_iff

/-- Where a word has been fetched, the address space does not end. -/
theorem pc_lt_of_fetch {w : Word} (h : m.fetch = .ok w) : m.pc.toNat + 4 < 2 ^ 32 := by
  obtain ⟨i, hi, hpc⟩ := fetch_eq_ok_iff.mp h
  have hslot : i < m.text.size := (Array.getElem?_eq_some_iff.mp hi).1
  have hsize := m.text.size_le_maxCapacity
  omega

theorem step_of_attempt_ok {effect : Effect} (hstatus : m.status = .running)
    (h : m.attempt = .ok effect) : m.step = ((m.commit effect).counted.refreshed, none) := by
  unfold step isFinished
  rw [hstatus, h]
  rfl

theorem step_of_attempt_error {fault : Fault} (hstatus : m.status = .running)
    (h : m.attempt = .error fault) : m.step = (m.faulted, some fault) := by
  unfold step isFinished
  rw [hstatus, h]
  rfl

theorem attempt_of_decode {w : Word} {op : Operation} (hfetch : m.fetch = .ok w)
    (hdecode : decode w = .ok op) : m.attempt = m.effect op := by
  unfold attempt
  rw [hfetch]
  show ((decode w).mapError Fault.undecodable >>= m.effect) = m.effect op
  rw [hdecode]
  rfl

/-- **Every step is in the list.** -/
theorem steps_step (m : Machine) : m.Steps m.step.1 m.step.2 := by
  cases hstatus : m.status with
  | finished =>
    rw [step_of_isFinished (isFinished_iff.mpr hstatus)]
    exact .idle hstatus
  | running =>
    cases hfetch : m.fetch with
    | error fault =>
      obtain ⟨fault, hread, rfl⟩ := mapError_eq_error.mp hfetch
      rw [step_of_attempt_error hstatus (bind_eq_error.mpr (.inl hfetch))]
      exact .unfetched hstatus hread
    | ok w =>
      cases hdecode : decode w with
      | error error =>
        rw [step_of_attempt_error hstatus (bind_eq_error.mpr (.inr ⟨w, hfetch,
          bind_eq_error.mpr (.inl (mapError_eq_error.mpr ⟨error, hdecode, rfl⟩))⟩))]
        exact .undecodable hstatus hfetch hdecode
      | ok op =>
        have hattempt := attempt_of_decode hfetch hdecode
        rcases effect_cases (pc_lt_of_fetch hfetch) (fits_of_decode hdecode) with
          ⟨effect, heffect, hnext⟩ | ⟨fault, heffect, hop, hfault, -⟩
        · rw [step_of_attempt_ok hstatus (hattempt.trans heffect)]
          exact .carries hstatus hfetch hdecode heffect hnext
        · rw [step_of_attempt_error hstatus (hattempt.trans heffect)]
          exact .denied hstatus hfetch hdecode hop hfault

theorem steps_of_step {fault? : Option Fault} (h : m.step = (m', fault?)) :
    m.Steps m' fault? := by
  have hsteps := m.steps_step
  rwa [h] at hsteps

theorem exists_steps_of_fault {fault? : Option Fault} (h : m.step.2 = fault?) :
    ∃ m', m.Steps m' fault? :=
  ⟨m.step.1, h ▸ m.steps_step⟩

/-! ## Running and finished -/

/-- The machine is running exactly while its program counter lies within the
program. -/
def Attuned (m : Machine) : Prop :=
  m.status = .running ↔ m.text.contains m.pc = true

theorem attuned_refreshed (m : Machine) : m.refreshed.Attuned := by
  unfold Attuned refreshed
  dsimp only
  split <;> simp [*]

theorem Attuned.refreshed_eq (h : m.Attuned) : m.refreshed = m := by
  unfold Attuned at h
  unfold refreshed
  cases hstatus : m.status with
  | running =>
    rw [if_pos (h.mp hstatus), ← hstatus]
  | finished =>
    have hnot : ¬ m.text.contains m.pc = true := fun hcontains => by
      rw [h.mpr hcontains] at hstatus
      cases hstatus
    rw [if_neg hnot, ← hstatus]

section
variable {slot : Nat} (hpc : m.pc.toNat = 0x400000 + 4 * slot)
include hpc

/-- In a slot of the text segment, a machine is running if the program has a word
there. -/
theorem Attuned.running_iff (h : m.Attuned) : m.status = .running ↔ slot < m.text.size := by
  refine Iff.trans h ?_
  rw [TextSegment.contains_iff, hpc]
  omega

theorem Attuned.finished_iff (h : m.Attuned) : m.status = .finished ↔ m.text.size ≤ slot := by
  have hrunning := h.running_iff hpc
  cases hstatus : m.status with
  | running =>
    have hlt := hrunning.mp hstatus
    simp only [reduceCtorEq, false_iff]
    omega
  | finished =>
    rw [hstatus] at hrunning
    simp only [reduceCtorEq, false_iff] at hrunning
    simp only [true_iff]
    omega

end

/-! ## What a step does -/

/-- **A step follows the architecture.**  A step that succeeds takes a running
machine, as far as a program can tell, to the state that the architecture puts behind
the operation at the program counter.  The program and the configuration stay, one
more instruction is counted, and the machine goes on running exactly if the new
program counter lies within the program. -/
theorem step_refines {w : Word} {op : Operation} (hstatus : m.status = .running)
    (hfetch : m.fetch = .ok w) (hdecode : decode w = .ok op) (hstep : m.step = (m', none)) :
    m.architecture.next op = some m'.architecture ∧ m'.text = m.text ∧
      m'.config = m.config ∧ m'.steps = m.steps + 1 ∧
      (m'.status = .running ↔ 0x400000 ≤ m'.pc.toNat ∧
        m'.pc.toNat < 0x400000 + 4 * m.text.size) := by
  cases steps_of_step hstep with
  | idle hfinished => cases hstatus.symm.trans hfinished
  | carries _ hfetch' hdecode' heffect hnext =>
    cases hfetch.symm.trans hfetch'
    cases hdecode.symm.trans hdecode'
    exact ⟨hnext, rfl, rfl, rfl, (attuned_refreshed _).trans TextSegment.contains_iff⟩

theorem step_refines_addi_wraps :
    let m := start {} ⟨#[0x23BD0001], 1, by decide, by decide⟩ ⟨#[0], by decide⟩
    m.step.2 = none ∧ m.architecture.next (.addi 29 29 1) = some m.step.1.architecture ∧
      m.architecture.register 29 = 0xFFFFFFFF ∧ m.step.1.architecture.register 29 = 0 := by
  intro m
  have hstep : m.step.2 = none := by decide
  exact ⟨hstep, (step_refines (w := 0x23BD0001) rfl (by decide) (by decide)
    (Prod.ext rfl hstep)).1, by decide, by decide⟩

end Mips.Machine
