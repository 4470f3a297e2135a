import Mips.Proofs.Machine.Invariant

/-!
# Reset

A reset forgets everything that a machine has been through.  Requests of all kinds change
registers, data, the program counter, the status and the count of steps, and a reset sets
these anew; configuration, program and the size of the data segment are taken over from
the machine, and no request changes them (`Machine.preserves_through`).  So a reset gives
the machine that was loaded, and whatever is asked of it from then on is answered as if
nothing had been asked before (`Machine.reset_starts_afresh`).
-/
namespace Mips

/-- Nothing is left of what was stored in a segment but its size. -/
theorem DataSegment.cleared_eq_of_zeroed {size : Nat} {data used : DataSegment}
    (h : zeroed size = .ok data) (hsize : used.size = data.size) : used.cleared = data := by
  have hcapacity : used.size = size / 4 := hsize.trans (size_of_zeroed h)
  apply eq_of_words
  rw [(zeroed_eq_ok_iff.mp h).2, ← hcapacity]
  rfl

namespace Machine

variable {m m' : Machine}

/-- A machine that has what a reset takes over in common with a loaded one is that machine
after a reset. -/
theorem Preserves.reset_eq {program : Array Word} {config : Config}
    (h : load program config = .ok m) (hpreserves : m.Preserves m') : m'.reset = m := by
  obtain ⟨text, data, -, hdata, rfl⟩ := load_eq_ok_iff.mp h
  unfold reset
  rw [hpreserves.config, hpreserves.text,
    DataSegment.cleared_eq_of_zeroed hdata hpreserves.dataSize]
  rfl

/-! ## What is seen of a machine -/

/-- The fault that a request meets, if it meets one. -/
def faultOf (m : Machine) : Request → Option Fault
  | .call .step => m.step.2
  | .call .reset => none
  | .execute op => (m.execute op).2

/-- Everything that is seen of requests: of each the fault, if it meets one, and the
machine behind it. -/
def transcript (m : Machine) : List Request → List (Option Fault × Machine)
  | [] => []
  | request :: rest => (m.faultOf request, m.serve request) :: (m.serve request).transcript rest

theorem transcript_append (m : Machine) (requests later : List Request) :
    m.transcript (requests ++ later) =
      m.transcript requests ++ (m.through requests).transcript later := by
  induction requests generalizing m with
  | nil => rfl
  | cons request requests ih =>
    show _ :: (m.serve request).transcript (requests ++ later) = _
    rw [ih]
    rfl

/-- **A reset starts afresh.**  Whatever steps, resets and operations a machine has been
through since it was loaded, failing or not, a reset gives the machine that was loaded.
So behind a reset everything that is seen of further requests is what would have been seen
of them in the first place. -/
theorem reset_starts_afresh {program : Array Word} {config : Config}
    (h : load program config = .ok m) (history : List Request) :
    (m.through history).reset = m ∧ ∀ later,
      m.transcript (history ++ .call .reset :: later) =
        m.transcript history ++ (none, m) :: m.transcript later := by
  have hreset : (m.through history).reset = m := (preserves_through m history).reset_eq h
  refine ⟨hreset, fun later => ?_⟩
  have hlater : (m.through history).transcript (.call .reset :: later) =
      (none, (m.through history).reset) :: (m.through history).reset.transcript later := rfl
  rw [transcript_append, hlater, hreset]

theorem reset_starts_afresh_after_stores :
    ∃ m, load #[0x8FA80001] { dataSize := 8 } = .ok m ∧
      (m.through [.execute (.addi 8 0 5), .execute (.sw 8 29 0), .execute (.lw 9 29 1),
        .execute (.addi 29 0 1)]).data.words = #[5, 0] ∧
      (m.through [.execute (.addi 8 0 5), .execute (.sw 8 29 0), .execute (.lw 9 29 1),
        .execute (.addi 29 0 1)]).reset = m ∧
      m.transcript [.execute (.addi 29 0 1), .call .reset, .call .step] =
        m.transcript [.execute (.addi 29 0 1)] ++ (none, m) :: m.transcript [.call .step] := by
  have hrun : (load #[0x8FA80001] { dataSize := 8 }).toOption.map (fun m =>
      (m.through [.execute (.addi 8 0 5), .execute (.sw 8 29 0), .execute (.lw 9 29 1),
        .execute (.addi 29 0 1)]).data.words) = some #[5, 0] := by
    decide +kernel
  obtain ⟨m, hload, hwords⟩ := Option.map_eq_some_iff.mp hrun
  rw [toOption_eq_some] at hload
  exact ⟨m, hload, hwords, (reset_starts_afresh hload _).1,
    (reset_starts_afresh hload [.execute (.addi 29 0 1)]).2 [.call .step]⟩

end Machine
end Mips
