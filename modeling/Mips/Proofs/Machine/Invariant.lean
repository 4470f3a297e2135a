import Mips.Proofs.Machine.Faults

/-!
# What holds of every machine

Two kinds of facts hold of a machine whatever has been asked of it since it was loaded.

Steps and resets keep the books: a machine is finished exactly while its program counter
lies outside the program, a finished machine stays as it is, and the count of steps is
the number of steps that were completed since the last reset (`Machine.steps_after`).

Operations may also be carried out behind the program's back (`Request.execute`), which
moves the program counter without looking at the status.  What no request touches is
listed in `Machine.Preserves`: the configuration, the program, the size of the data
segment, and the zero in register zero (`Machine.preserves_through`).
-/
namespace Mips

/-- What can be asked of a machine if operations need not come from its program. -/
inductive Request where
  | call (c : Call)
  | execute (op : Operation)
deriving DecidableEq

namespace Machine

variable {m m' m'' : Machine}

/-! ## The count of steps -/

/-- Call number `i` is a step that a running machine completes, and there is no reset
behind it. -/
def CompletesAt (m : Machine) (calls : List Call) (i : Nat) : Prop :=
  calls[i]? = some .step ∧ .reset ∉ calls.drop (i + 1) ∧
    (m.after (calls.take i)).status = .running ∧ (m.after (calls.take i)).step.2 = none

instance (m : Machine) (calls : List Call) : DecidablePred (m.CompletesAt calls) := fun _ =>
  inferInstanceAs (Decidable (_ ∧ _ ∧ _ ∧ _))

/-- The number of steps completed since the last reset. -/
def completed (m : Machine) (calls : List Call) : Nat :=
  (List.range calls.length).countP fun i => m.CompletesAt calls i

theorem completed_concat_reset (calls : List Call) : m.completed (calls ++ [.reset]) = 0 := by
  refine List.countP_eq_zero.mpr fun i hi => ?_
  rw [List.mem_range, List.length_append, List.length_singleton] at hi
  rw [decide_eq_true_iff]
  rintro ⟨hstep, hreset, -⟩
  -- the last call is the reset itself, and every other one has it behind it
  rcases Nat.lt_or_ge i calls.length with hlt | hge
  · refine hreset ?_
    rw [List.drop_append_of_le_length hlt]
    exact List.mem_append_right _ List.mem_cons_self
  · rw [show i = calls.length by omega, List.getElem?_concat_length] at hstep
    cases hstep

theorem completesAt_concat_step {calls : List Call} {i : Nat} (hi : i < calls.length) :
    m.CompletesAt (calls ++ [.step]) i ↔ m.CompletesAt calls i := by
  unfold CompletesAt
  rw [List.getElem?_append_left hi, List.drop_append_of_le_length hi,
    List.take_append_of_le_length (Nat.le_of_lt hi), List.mem_append]
  simp

theorem completesAt_length {calls : List Call} :
    m.CompletesAt (calls ++ [.step]) calls.length ↔
      (m.after calls).status = .running ∧ (m.after calls).step.2 = none := by
  unfold CompletesAt
  simp

theorem completed_concat_step (calls : List Call) : m.completed (calls ++ [.step]) =
    m.completed calls +
      if (m.after calls).status = .running ∧ (m.after calls).step.2 = none then 1 else 0 := by
  unfold completed
  rw [List.length_append, List.length_singleton, List.range_succ, List.countP_append,
    List.countP_singleton]
  congr 1
  · refine List.countP_congr fun i hi => ?_
    rw [decide_eq_true_iff, decide_eq_true_iff]
    exact completesAt_concat_step (List.mem_range.mp hi)
  · simp only [decide_eq_true_iff, completesAt_length]

/-- A step counts if the machine is running and there is no fault. -/
theorem Steps.steps_eq {fault? : Option Fault} (h : m.Steps m' fault?) :
    m'.steps = m.steps + if m.status = .running ∧ fault? = none then 1 else 0 := by
  cases h with
  | idle hstatus => simp [hstatus]
  | carries hstatus =>
    rw [if_pos ⟨hstatus, rfl⟩]
    rfl
  | unfetched | undecodable | denied =>
    rw [faulted_eq]
    simp

/-- **The count of steps** is the number of steps completed since the last reset. -/
theorem steps_after (h : m.steps = 0) (calls : List Call) :
    (m.after calls).steps = m.completed calls := by
  induction calls using List.reverseRecOn with
  | nil => exact h
  | append_singleton calls c ih =>
    rw [after_concat]
    cases c with
    | reset =>
      rw [completed_concat_reset]
      rfl
    | step =>
      rw [completed_concat_step, ← ih]
      exact (m.after calls).steps_step.steps_eq

/-! ## What no request changes -/

/-- The machine after a request. -/
def serve (m : Machine) : Request → Machine
  | .call c => m.call c
  | .execute op => (m.execute op).1

/-- The machine after requests, the first of the list first. -/
def through (m : Machine) (requests : List Request) : Machine :=
  requests.foldl serve m

/-- What `m'` has in common with a machine `m` that it has come from. -/
structure Preserves (m m' : Machine) : Prop where
  config : m'.config = m.config
  text : m'.text = m.text
  dataSize : m'.data.size = m.data.size
  zero : m.registers.read Register.zero = .ok 0 → m'.registers.read Register.zero = .ok 0

theorem Preserves.refl (m : Machine) : m.Preserves m :=
  ⟨rfl, rfl, rfl, id⟩

theorem Preserves.trans (h : m.Preserves m') (h' : m'.Preserves m'') : m.Preserves m'' :=
  ⟨h'.config.trans h.config, h'.text.trans h.text, h'.dataSize.trans h.dataSize,
    fun hzero => h'.zero (h.zero hzero)⟩

/-- Whatever an effect is, it does not get at the zero register. -/
theorem preserves_commit (m : Machine) (effect : Effect) : m.Preserves (m.commit effect) := by
  obtain ⟨register, slot, pc⟩ := effect
  refine ⟨rfl, rfl, ?_, fun hzero => ?_⟩
  · cases slot with
    | none => rfl
    | some write => exact DataSegment.size_set _ _ _
  · cases register with
    | none => exact hzero
    | some write =>
      show (m.registers.set write.1 write.2).read Register.zero = .ok 0
      rw [Registers.read_set, if_neg fun h => h.2.1 h.1.symm]
      exact hzero

theorem preserves_execute (m : Machine) (op : Operation) : m.Preserves (m.execute op).1 := by
  unfold execute
  cases m.effect op with
  | error fault => exact .refl m
  | ok effect => exact preserves_commit m effect

theorem Steps.preserves {fault? : Option Fault} (h : m.Steps m' fault?) : m.Preserves m' := by
  cases h with
  | idle => exact .refl m
  | carries =>
    obtain ⟨hconfig, htext, hsize, hzero⟩ := preserves_commit m _
    exact ⟨hconfig, htext, hsize, hzero⟩
  | unfetched | undecodable | denied =>
    rw [faulted_eq]
    exact ⟨rfl, rfl, rfl, id⟩

theorem read_zero_start (config : Config) (text : TextSegment) (data : DataSegment) :
    (start config text data).registers.read Register.zero = .ok 0 :=
  rfl

theorem preserves_serve (m : Machine) (request : Request) : m.Preserves (m.serve request) := by
  cases request with
  | execute op => exact preserves_execute m op
  | call c =>
    cases c with
    | step => exact m.steps_step.preserves
    | reset => exact ⟨rfl, rfl, DataSegment.size_cleared _, fun _ => read_zero_start _ _ _⟩

/-- **No request changes** the configuration, the program, the size of the data segment,
or the zero in register zero. -/
theorem preserves_through (m : Machine) (requests : List Request) :
    m.Preserves (m.through requests) := by
  induction requests generalizing m with
  | nil => exact .refl m
  | cons request requests ih => exact (preserves_serve m request).trans (ih _)

/-! ## Machines that have been loaded -/

/-- Exactly the registers that exist can be read. -/
theorem exists_read_eq_error_iff {registers : Registers} {n : Nat} :
    (∃ fault, registers.read n = .error fault) ↔ 32 ≤ n := by
  unfold Registers.read
  constructor
  · rintro ⟨fault, h⟩
    by_contra hlt
    rw [Vector.getElem?_eq_getElem (show n < Register.count by unfold Register.count; omega)] at h
    cases h
  · intro hle
    rw [Vector.getElem?_eq_none (show Register.count ≤ n from hle)]
    exact ⟨_, rfl⟩

/-- A machine is finished exactly while its program counter has left the program. -/
theorem Attuned.finished_iff_not_contains (h : m.Attuned) :
    m.status = .finished ↔ ¬ m.text.contains m.pc = true := by
  unfold Attuned at h
  rw [← h]
  cases m.status <;> simp

/-- **What holds of every machine that has been loaded.**  After any steps and resets it
is finished exactly if its program counter lies outside the program, no further step
changes anything once it is finished, and its count is that of the steps completed since
the last reset.  Also when operations are carried out in between, register zero reads
zero, a register can be read exactly if there is one of that number, the program is what
was loaded word for word, and the data segment has the size it was set up with. -/
theorem loaded_invariant {program : Array Word} {config : Config}
    (h : load program config = .ok m) :
    (∀ calls,
      ((m.after calls).status = .finished ↔ ¬ (0x400000 ≤ (m.after calls).pc.toNat ∧
        (m.after calls).pc.toNat < 0x400000 + 4 * program.size)) ∧
      ((m.after calls).status = .finished → ∀ n,
        m.after (calls ++ List.replicate n .step) = m.after calls ∧
          (m.after (calls ++ List.replicate n .step)).step = (m.after calls, none)) ∧
      (m.after calls).steps = m.completed calls) ∧
    ∀ requests,
      (m.through requests).registers.read Register.zero = .ok 0 ∧
      (∀ n, (∃ fault, (m.through requests).registers.read n = .error fault) ↔ 32 ≤ n) ∧
      (m.through requests).text.words = program ∧
      (m.through requests).data.size = config.dataSize / 4 := by
  have hattuned := attuned_of_load h
  have hwords := words_of_load h
  obtain ⟨text, data, -, hdata, hstart⟩ := load_eq_ok_iff.mp h
  constructor
  · intro calls
    refine ⟨?_, ?_, ?_⟩
    · have hsize : (m.after calls).text.size = program.size := by
        rw [text_after, TextSegment.size, hwords]
      rw [(attuned_after hattuned calls).finished_iff_not_contains, TextSegment.contains_iff,
        hsize]
    · intro hfinished n
      have hstep := step_of_isFinished (isFinished_iff.mpr hfinished)
      rw [after_append, after_replicate_step hstep]
      exact ⟨rfl, hstep⟩
    · exact steps_after (hstart ▸ rfl) calls
  · intro requests
    obtain ⟨-, htext, hsize, hzero⟩ := preserves_through m requests
    refine ⟨hzero (hstart ▸ read_zero_start config text data), fun n => exists_read_eq_error_iff,
      htext ▸ hwords, hsize.trans ?_⟩
    rw [← hstart]
    exact DataSegment.size_of_zeroed hdata

theorem loaded_invariant_after_reset :
    ∃ m, load #[0x20080001] {} = .ok m ∧
      (m.after [.step, .reset, .step, .step]).status = .finished ∧
      (∀ n, m.after ([.step, .reset, .step, .step] ++ List.replicate n .step) =
        m.after [.step, .reset, .step, .step]) ∧
      m.completed [.step, .reset, .step, .step] = 1 ∧
      (m.through [.execute (.addi 0 0 5), .call .step]).registers.read Register.zero = .ok 0 := by
  have hrun : (load #[0x20080001] {}).toOption.map (fun m =>
      ((m.after [.step, .reset, .step, .step]).status,
        (m.after [.step, .reset, .step, .step]).steps)) = some (.finished, 1) := by
    decide +kernel
  obtain ⟨m, hload, h⟩ := Option.map_eq_some_iff.mp hrun
  rw [toOption_eq_some] at hload
  obtain ⟨hstatus, hsteps⟩ := Prod.mk.inj h
  obtain ⟨hcalls, hrequests⟩ := loaded_invariant hload
  obtain ⟨-, hstays, hcount⟩ := hcalls [.step, .reset, .step, .step]
  exact ⟨m, hload, hstatus, fun n => (hstays hstatus n).1, hcount.symm.trans hsteps,
    (hrequests _).1⟩

end Machine
end Mips
