import Mips.Proofs.Machine.Build
import Mips.Proofs.Machine.History

/-!
# Why a step can fail

A machine that has been loaded with words of any kind fails for one of three reasons:
a load or store cannot access its data word (`Machine.DataFault`), the program counter
lies between two words because a `jr` has put it there (`Machine.AlignmentFault`), or
the word at the program counter is no instruction (`Machine.DecodingFault`).  Missing
registers and missing words do not occur: register fields have five bits, and a machine
whose program counter has left the program is finished.

The third reason does not occur either if the words have been assembled, and a program
without loads, stores and `jr` never fails at all (`Machine.step_faults`).
-/
namespace Mips.Machine

variable {m : Machine} {fault : Fault}

/-- A data word cannot be accessed, and the word at the program counter is a load or
store. -/
def DataFault (m : Machine) (fault : Fault) : Prop :=
  fault.InData ∧ ∃ w op, m.fetch = .ok w ∧ decode w = .ok op ∧ op.AccessesData

/-- After some calls the program counter lies between two words, and a `jr` since the
last reset has jumped there. -/
def AlignmentFault (m : Machine) (calls : List Call) (fault : Fault) : Prop :=
  fault = .access (.misaligned .text (m.after calls).pc) ∧ m.AstrayAfter calls

/-- The word at the program counter is no instruction, for one of its two codes. -/
def DecodingFault (m : Machine) (fault : Fault) : Prop :=
  ∃ w error, m.fetch = .ok w ∧ decode w = .error error ∧ fault = .undecodable error ∧
    (error = .unknownOpCode (Word.opCode w) ∨ error = .unknownFunction (Word.function w))

/-- **What a fault can be**, after any calls on a machine that starts on a word
boundary. -/
theorem fault_after (hattuned : m.Attuned) (haligned : m.pc.toNat % 4 = 0)
    {calls : List Call} (h : (m.after calls).step.2 = some fault) :
    (m.after calls).DataFault fault ∨ m.AlignmentFault calls fault ∨
      (m.after calls).DecodingFault fault := by
  obtain ⟨next, hsteps⟩ := exists_steps_of_fault h
  cases hsteps with
  | unfetched hstatus hread =>
    -- a running machine is within its program, so only the alignment can be wrong
    have hcontains := (attuned_after hattuned calls).mp hstatus
    rcases TextSegment.read_of_contains hcontains with
      ⟨hmisaligned, hread'⟩ | ⟨_, _, _, _, hread'⟩
    · cases hread.symm.trans hread'
      exact .inr (.inl ⟨rfl, (aligned_after haligned calls).resolve_left hmisaligned⟩)
    · cases hread.symm.trans hread'
  | undecodable hstatus hfetch hdecode =>
    exact .inr (.inr ⟨_, _, hfetch, hdecode, rfl, error_of_decode hdecode⟩)
  | denied hstatus hfetch hdecode hop hfault =>
    exact .inl ⟨hfault, _, _, hfetch, hdecode, hop⟩

/-! ## Machines that have just been loaded -/

theorem attuned_of_load {program : Array Word} {config : Config}
    (h : load program config = .ok m) : m.Attuned := by
  obtain ⟨text, data, -, -, rfl⟩ := load_eq_ok_iff.mp h
  exact attuned_refreshed _

theorem aligned_of_load {program : Array Word} {config : Config}
    (h : load program config = .ok m) : m.pc.toNat % 4 = 0 := by
  obtain ⟨text, data, -, -, rfl⟩ := load_eq_ok_iff.mp h
  exact (by decide : textBase.toNat % 4 = 0)

theorem config_of_load {program : Array Word} {config : Config}
    (h : load program config = .ok m) : m.config = config := by
  obtain ⟨text, data, -, -, rfl⟩ := load_eq_ok_iff.mp h
  rfl

theorem pc_of_load {program : Array Word} {config : Config}
    (h : load program config = .ok m) : m.pc = textBase := by
  obtain ⟨text, data, -, -, rfl⟩ := load_eq_ok_iff.mp h
  rfl

theorem steps_of_load {program : Array Word} {config : Config}
    (h : load program config = .ok m) : m.steps = 0 := by
  obtain ⟨text, data, -, -, rfl⟩ := load_eq_ok_iff.mp h
  rfl

theorem fault_of_load {program : Array Word} {config : Config}
    (h : load program config = .ok m) {calls : List Call}
    (hfault : (m.after calls).step.2 = some fault) :
    (m.after calls).DataFault fault ∨ m.AlignmentFault calls fault ∨
      (m.after calls).DecodingFault fault :=
  fault_after (attuned_of_load h) (aligned_of_load h) hfault

/-! ## Machines with an assembled program -/

section
variable {source : String} {config : Config} (hbuild : build source config = .ok m)
include hbuild

/-- In an assembled program every word is an instruction. -/
theorem fault_of_build {calls : List Call} (hfault : (m.after calls).step.2 = some fault) :
    (m.after calls).DataFault fault ∨ m.AlignmentFault calls fault := by
  obtain ⟨program, -, hload⟩ := build_eq_ok_iff.mp hbuild
  obtain ⟨listing, -, hparse, -⟩ := exists_program_of_build hbuild
  rcases fault_of_load hload hfault with
    hdata | halignment | ⟨w, error, hfetch, hdecode, -⟩
  · exact .inl hdata
  · exact .inr halignment
  · obtain ⟨_, _, op, -, hdecode', -⟩ :=
      denotes_of_fetch hbuild hparse (text_after calls) hfetch
    cases hdecode.symm.trans hdecode'

/-- A fault needs a load, a store or a `jr` in the source text. -/
theorem exists_mnemonic_of_fault {listing : Listing}
    (hparse : Listing.parse source = .ok listing) {calls : List Call}
    (hfault : (m.after calls).step.2 = some fault) :
    ∃ line ∈ listing.statements, line.value.mnemonic ∈ ["lw", "sw", "jr"] := by
  rcases fault_of_build hbuild hfault with
    ⟨-, w, op, hfetch, hdecode, hop⟩ | ⟨-, before, rest, -, -, -, w, rs, -, hfetch, hdecode, -⟩
  · obtain ⟨i, line, op', hline, hdecode', hdenotes⟩ :=
      denotes_of_fetch hbuild hparse (text_after calls) hfetch
    cases hdecode.symm.trans hdecode'
    refine ⟨line, List.mem_of_getElem? hline, ?_⟩
    rcases hdenotes.mnemonic_of_accessesData hop with h | h <;> simp [h]
  · obtain ⟨i, line, op', hline, hdecode', hdenotes⟩ :=
      denotes_of_fetch hbuild hparse (text_after before) hfetch
    cases hdecode.symm.trans hdecode'
    exact ⟨line, List.mem_of_getElem? hline, by simp [hdenotes.mnemonic_of_jr]⟩

end

/-- **Machines fail in known ways.**  Whatever steps and resets a machine has been
through, strict or permissive, a step of one with an assembled program fails only on a
data word or because a `jr` has jumped between two words; in particular it never misses
a register, an instruction or a word of the program, and it does not fail at all if the
source text has no load, store or `jr`.  With words that nobody has assembled it can
also meet one that is no instruction. -/
theorem step_faults (config : Config) :
    (∀ source m, build source config = .ok m →
      (∀ calls fault, (m.after calls).step.2 = some fault →
        ((m.after calls).DataFault fault ∨ m.AlignmentFault calls fault) ∧
          (∀ number, fault ≠ .noRegister number) ∧ (∀ error, fault ≠ .undecodable error) ∧
          ∀ address, fault ≠ .access (.outOfRange .text address)) ∧
      ∀ listing, Listing.parse source = .ok listing →
        (∀ line ∈ listing.statements, line.value.mnemonic ∉ ["lw", "sw", "jr"]) →
        ∀ calls, (m.after calls).step.2 = none) ∧
    ∀ program m, load program config = .ok m →
      ∀ calls fault, (m.after calls).step.2 = some fault →
        (m.after calls).DataFault fault ∨ m.AlignmentFault calls fault ∨
          (m.after calls).DecodingFault fault := by
  constructor
  · intro source m hbuild
    constructor
    · intro calls fault hfault
      have hknown := fault_of_build hbuild hfault
      refine ⟨hknown, ?_⟩
      rcases hknown with ⟨hdata, -⟩ | ⟨rfl, -⟩
      · cases hdata <;> simp
      · simp
    · intro listing hparse hnone calls
      cases hfault : (m.after calls).step.2 with
      | none => rfl
      | some fault =>
        obtain ⟨line, hline, hmnemonic⟩ := exists_mnemonic_of_fault hbuild hparse hfault
        exact absurd hmnemonic (hnone line hline)
  · intro program m hload calls fault hfault
    exact fault_of_load hload hfault

theorem step_faults_of_three_programs :
    (∃ m, build "addi $t0, $t0, 64\nsll $t0, $t0, 16\naddi $t0, $t0, 2\njr $t0" {} = .ok m ∧
      (m.after [.step, .step, .step, .step]).step.2 =
        some (.access (.misaligned .text 0x400002)) ∧
      m.AlignmentFault [.step, .step, .step, .step] (.access (.misaligned .text 0x400002))) ∧
    (∃ m, build "loop: j loop" {} = .ok m ∧ ∀ calls, (m.after calls).step.2 = none) ∧
    ∃ m, load #[0xFC000000] {} = .ok m ∧
      (m.after []).DecodingFault (.undecodable (.unknownOpCode 0x3F)) := by
  refine ⟨?_, ?_, ?_⟩
  · have hrun : (build "addi $t0, $t0, 64\nsll $t0, $t0, 16\naddi $t0, $t0, 2\njr $t0"
        {}).toOption.map (fun m => (m.after [.step, .step, .step, .step]).step.2) =
          some (some (.access (.misaligned .text 0x400002))) := by decide +kernel
    obtain ⟨m, hbuild, hfault⟩ := Option.map_eq_some_iff.mp hrun
    rw [toOption_eq_some] at hbuild
    refine ⟨m, hbuild, hfault, ?_⟩
    rcases (((step_faults {}).1 _ m hbuild).1 _ _ hfault).1 with ⟨hdata, -⟩ | halignment
    · cases hdata
    · exact halignment
  · have hparse : Listing.parse "loop: j loop" = .ok
        [⟨1, "loop: j loop", .statement (some "loop") ⟨"j", [.label "loop"]⟩⟩] := by
      decide +kernel
    have hbuild : (build "loop: j loop" {}).toOption.isSome = true := by decide +kernel
    obtain ⟨m, hbuild⟩ := Option.isSome_iff_exists.mp hbuild
    rw [toOption_eq_some] at hbuild
    exact ⟨m, hbuild, ((step_faults {}).1 _ m hbuild).2 _ hparse (by decide)⟩
  · have hrun : (load #[0xFC000000] {}).toOption.map (fun m => (m.after []).step.2) =
        some (some (.undecodable (.unknownOpCode 0x3F))) := by decide +kernel
    obtain ⟨m, hload, hfault⟩ := Option.map_eq_some_iff.mp hrun
    rw [toOption_eq_some] at hload
    refine ⟨m, hload, ?_⟩
    rcases (step_faults {}).2 _ m hload _ _ hfault with ⟨hdata, -⟩ | ⟨halignment, -⟩ | hdecoding
    · cases hdata
    · cases halignment
    · exact hdecoding

end Mips.Machine
