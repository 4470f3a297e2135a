import Mips.Proofs.Machine.Narrow

/-!
# Arithmetic that stays in range

The bounds behind a narrow machine in numbers.  The numbers of an instruction stay in range
when the machine turns them round, makes bytes of them or shifts by them
(`Operation.InRange`), and so do the addresses of the two segments.

Main statement: `Machine.arithmetic_stays_in_range`, about every run of a loaded machine.
-/
namespace Mips

/-! ## The numbers of an instruction -/

/-- Shifting an offset by two bits loses none of them. -/
theorem toInt_ofInt_shiftLeft_two {offset : Int} (h : FitsInt32 (4 * offset)) :
    (Int32.ofInt offset <<< 2).toInt = 4 * offset := by
  have hshift : (Int32.ofInt offset <<< 2).toBitVec = BitVec.ofInt 32 (4 * offset) := by
    rw [Int32.toBitVec_shiftLeft, Int.mul_comm, BitVec.ofInt_mul]
    exact BitVec.shiftLeft_eq_mul_twoPow _ _
  rw [← Int32.toInt_toBitVec, hshift]
  exact BitVec.toInt_ofInt_eq_self (by decide) h.1 h.2

/-- The numbers of an operation stay in range when they are turned round, made into bytes,
or shifted by. -/
def Operation.InRange : Operation → Prop
  | .lw _ _ offset | .sw _ _ offset =>
    -0x8000 ≤ offset ∧ offset ≤ 0x7FFF ∧ FitsInt32 (-offset)
  | .beq _ _ offset | .bne _ _ offset =>
    FitsInt32 (4 * offset) ∧ (Int32.ofInt offset <<< 2).toInt = 4 * offset
  | .sll _ _ shift | .srl _ _ shift => shift < 32
  | _ => True

theorem Operation.inRange_of_fits {op : Operation} (h : op.Fits) : op.InRange := by
  cases op with
  | sll | srl => exact h.2.2
  | lw | sw =>
    have hneg := Machine.fitsInt32_neg h.2.2
    obtain ⟨hlow, hhigh⟩ := h.2.2
    exact ⟨hlow, Int.lt_add_one_iff.mp hhigh, hneg⟩
  | beq | bne =>
    have hbytes := Machine.fitsInt32_four_mul h.2.2
    exact ⟨hbytes, toInt_ofInt_shiftLeft_two hbytes⟩
  | _ => trivial

/-! ## The addresses of the segments -/

namespace Machine

variable {m : Machine} {program : Array Word} {config : Config}

theorem preserves_after (m : Machine) (calls : List Call) : m.Preserves (m.after calls) :=
  after_induction (P := fun _ => m.Preserves) (.refl m)
    (fun _ c m' ih => ih.trans (preserves_serve m' (.call c))) calls

theorem dataSize_of_load (h : load program config = .ok m) :
    m.data.size = config.dataSize / 4 := by
  obtain ⟨text, data, -, hdata, rfl⟩ := load_eq_ok_iff.mp h
  exact DataSegment.size_of_zeroed hdata

/-- The addresses of data words are found by exact subtraction. -/
theorem dataAddress_in_range {slot : Nat} (h : slot < m.data.size) :
    (dataBase.toNat - 4 * slot : Int) = (dataAddress slot).toNat ∧
      0xFFF00003 ≤ (dataAddress slot).toNat := by
  have hsize : m.data.size ≤ 262144 := m.data.size_le
  have hbase : dataBase.toNat = 0xFFFFFFFF := rfl
  rw [toNat_dataAddress (by omega), hbase]
  omega

/-- The addresses of instructions are found by exact addition. -/
theorem textAddress_in_range {slot : Nat} (h : slot ≤ m.text.size) :
    (textBase.toNat + 4 * slot : Int) = (textAddress slot).toNat ∧
      (textAddress slot).toNat ≤ 0x00500000 := by
  have hsize : m.text.size ≤ 262144 := m.text.size_le_maxCapacity
  rw [toNat_textAddress (by omega), toNat_textBase]
  omega

/-! ## Machines that have been loaded -/

/-- **No arithmetic leaves its type.**  Through any steps and resets of a machine that has
been loaded, a narrow machine does the same and is never stuck, nor is it in the step that
comes next: every number on the way fits, and every register and word that is read or
written exists.  The instruction that comes next has its numbers in range.  The distance of
an address from `dataBase` is never negative, and the addresses of the two segments, of
which the end of the program is one, are found without wrapping around and reach down to
`0xFFF00003` and up to `0x00500000` at most. -/
theorem arithmetic_stays_in_range (h : load program config = .ok m) (calls : List Call) :
    m.narrowAfter calls = some (m.after calls) ∧
    (m.after calls).narrowStep = some (m.after calls).step ∧
    (∀ w op, (m.after calls).fetch = .ok w → decode w = .ok op → op.InRange) ∧
    (∀ address : Address,
      (dataBase.toNat - address.toNat : Int) = (dataBase - address).toNat) ∧
    (∀ slot < config.dataSize / 4,
      (dataBase.toNat - 4 * slot : Int) = (dataAddress slot).toNat ∧
        0xFFF00003 ≤ (dataAddress slot).toNat) ∧
    (∀ slot ≤ program.size,
      (textBase.toNat + 4 * slot : Int) = (textAddress slot).toNat ∧
        (textAddress slot).toNat ≤ 0x00500000) ∧
    (m.after calls).data.size = config.dataSize / 4 ∧
    (m.after calls).text.endAddress = textAddress program.size := by
  have hdata : m.data.size = config.dataSize / 4 := dataSize_of_load h
  have htext : m.text.size = program.size := congrArg Array.size (words_of_load h)
  have hpreserves := preserves_after m calls
  refine ⟨narrowAfter_eq m calls, narrowStep_eq _, ?_, ?_, ?_, ?_, ?_, ?_⟩
  · intro w op _ hop
    exact Operation.inRange_of_fits (fits_of_decode hop)
  · intro address
    have hle := address.toNat_lt
    have hbase : dataBase.toNat = 0xFFFFFFFF := rfl
    rw [DataSegment.toNat_dataBase_sub, hbase]
    omega
  · intro slot hslot
    exact dataAddress_in_range (hdata ▸ hslot)
  · intro slot hslot
    exact textAddress_in_range (htext ▸ hslot)
  · exact hpreserves.dataSize.trans hdata
  · unfold TextSegment.endAddress
    rw [hpreserves.text, htext]

theorem arithmetic_stays_in_range_at_the_bounds :
    ∃ m, load #[0x8FA88000, 0x000847C0, 0x15008000] { permissive := true } = .ok m ∧
      m.narrowAfter [.step, .step, .reset, .step, .step] =
        some (m.after [.step, .step, .reset, .step, .step]) ∧
      (Operation.bne 8 0 (-0x8000)).InRange ∧
      0xFFF00003 ≤ (dataAddress 127).toNat ∧
      (m.after [.step, .step, .reset, .step, .step]).text.endAddress = 0x0040000C := by
  have hrun : (load #[0x8FA88000, 0x000847C0, 0x15008000] { permissive := true }).toOption.map
      (fun m => (m.after [.step, .step, .reset, .step, .step]).fetch) = some (.ok 0x15008000) := by
    decide +kernel
  have hbranch : decode 0x15008000 = .ok (.bne 8 0 (-0x8000)) := by decide
  obtain ⟨m, hload, hfetch⟩ := Option.map_eq_some_iff.mp hrun
  rw [toOption_eq_some] at hload
  obtain ⟨hafter, -, hop, -, hdata, -, -, hend⟩ := arithmetic_stays_in_range hload
    [.step, .step, .reset, .step, .step]
  exact ⟨m, hload, hafter, hop _ _ hfetch hbranch, (hdata 127 (by decide)).2, hend⟩

end Machine
end Mips
