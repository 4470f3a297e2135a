import Mips.Proofs.Assembly.Resolution
import Mips.Proofs.Assembly.Verdict
import Mips.Proofs.Instruction.Text

/-!
# Disassembly is undone by assembly

The text of a word that holds no branch and no jump can be assembled, and the assembler
gives the word back, but for the bits that the instruction has no use for
(`assemble_disassemble`).  The assembler leaves these bits clear, so a word that comes from
it is given back as it is.
-/
namespace Mips

/-! ## Bits without a use -/

/-- The word with its bits from the value `low` on cleared, up to the value `high`. -/
def Word.cleared (low high : Nat) (w : Word) : Word :=
  UInt32.ofNat (w.toNat / high * high + w.toNat % low)

/-- The word with those bits cleared that its operation has no use for: the shift amount of
the instructions with three registers, the first source register of the two shifts, and
all but the register of `jr`. -/
def Operation.stripped : Operation → Word → Word
  | .add _ _ _ | .sub _ _ _ | .and _ _ _ | .or _ _ _ | .slt _ _ _ => Word.cleared 0x40 0x800
  | .sll _ _ _ | .srl _ _ _ => Word.cleared 0x200000 0x4000000
  | .jr _ => Word.cleared 0x40 0x200000
  | _ => id

namespace Instruction

/-- **Encoding undoes decoding**: an instruction has all the bits of its word. -/
theorem encode_of_ofWord {w : Word} {instruction : Instruction}
    (h : ofWord w = .ok instruction) : instruction.encode = w := by
  have hlt : w.toNat < 0x100000000 := w.toNat_lt
  have himmediate : (Word.immediate w).toUInt16.toNat = w.toNat % 0x10000 := by
    show (UInt16.ofNat (w.toNat % 0x10000)).toNat = _
    rw [UInt16.toNat_ofNat']
    omega
  rw [← UInt32.toNat_inj]
  unfold ofWord at h
  split at h
  case h_1 hcode =>
    split at h
    · next function hfunction =>
      cases h
      rw [toNat_encode_r, RFunction.code_of_ofCode? hfunction]
      unfold Word.opCode at hcode
      unfold Word.rs Word.rt Word.rd Word.shift Word.function
      omega
    · cases h
  case h_2 hcode | h_3 hcode =>
    cases h
    rw [toNat_encode_j]
    unfold Word.opCode at hcode
    unfold Word.index
    simp only [JOpCode.code]
    omega
  case h_4 hcode | h_5 hcode | h_6 hcode | h_7 hcode | h_8 hcode =>
    cases h
    rw [toNat_encode_i, himmediate]
    unfold Word.opCode at hcode
    unfold Word.rs Word.rt
    simp only [IOpCode.code]
    omega
  case h_9 => cases h

/-- An operation has zeros for the fields it has no use for. -/
theorem stripped_encode (instruction : Instruction) :
    instruction.operation.stripped instruction.encode =
      instruction.operation.instruction.encode := by
  cases instruction with
  | r function rs rt rd shift =>
    have hcode := function.code_lt
    rw [← UInt32.toNat_inj]
    cases function <;>
      simp only [operation, Operation.stripped, Operation.instruction, Word.cleared,
        toNat_encode_r, UInt32.toNat_ofNat', RFunction.code] <;> omega
  | i opCode rs rt immediate =>
    cases opCode <;>
      simp only [operation, Operation.stripped, Operation.instruction, Int16.ofInt_toInt, id]
  | j opCode index => cases opCode <;> rfl

end Instruction

section
variable {w : Word} {op : Operation}

/-- The word of what a word is decoded to. -/
theorem encode_of_decode (h : decode w = .ok op) : op.instruction.encode = op.stripped w := by
  obtain ⟨instruction, hinstruction, rfl⟩ := map_eq_ok.mp h
  rw [← Instruction.encode_of_ofWord hinstruction]
  exact instruction.stripped_encode.symm

/-- The words of the assembler have no bit set that has no use. -/
theorem stripped_of_assemble {source : String} {words : List Word} (h : decode w = .ok op)
    (hwords : assemble source = .ok words) (hw : w ∈ words) : op.stripped w = w := by
  obtain ⟨_, program, -, -, rfl⟩ := assemble_eq_ok_iff.mp hwords
  simp only [Program.words, Program.instructions, List.mem_map] at hw
  obtain ⟨_, ⟨original, -, rfl⟩, rfl⟩ := hw
  rw [← encode_of_decode h]
  -- the fields of the original operation come back, cut to their widths
  unfold decode at h
  rw [Instruction.ofWord_encode] at h
  cases h
  cases original <;>
    simp only [Operation.instruction, Instruction.truncated, Instruction.operation,
      Instruction.encode, Int16.ofInt_toInt, Nat.mod_mod]

end

/-! ## One statement as a source text -/

theorem Program.ofListing_statement {number : Nat} {text : String} {statement : Statement}
    {op : Operation} (hdenotes : statement.Denotes (fun _ _ => False) 0 op) (hfits : op.Fits) :
    ∃ symbols, ofListing [⟨number, text, .statement none statement⟩] = .ok ⟨symbols, [op]⟩ := by
  have hnodup : (Listing.labels [⟨number, text, .statement none statement⟩]).Nodup :=
    List.nodup_nil
  obtain ⟨symbols, hsymbols⟩ := Symbols.exists_ofListing_iff.mpr hnodup
  have hfinds : Statement.Finds (symbols[·]?) fun _ _ => False := fun _ _ h => h.elim
  have hresolve := Statement.resolve_of_denotes hfinds (by decide) hdenotes hfits
  exact ⟨symbols, ofListing_eq_ok_iff.mpr ⟨hsymbols, .cons (mapError_eq_ok.mpr hresolve) .nil⟩⟩

/-- The text of an operation is assembled to its word. -/
theorem assemble_of_isWrittenAs {op : Operation} {text : String} (h : op.IsWrittenAs text)
    (hfits : op.Fits) : assemble text = .ok [op.instruction.encode] := by
  obtain ⟨statement, hrenders, hplain, hdenotes⟩ := h
  have hparse := Listing.parse_of_renders (.statement hrenders) hplain
  obtain ⟨symbols, hprogram⟩ := Program.ofListing_statement (hdenotes _ _) hfits
  exact assemble_eq_ok_iff.mpr ⟨_, _, hparse, hprogram, rfl⟩

/-- **Assembly undoes disassembly.**  Wherever a word that holds neither a branch nor a jump
is disassembled, the text can be assembled again, and gives the word without the bits that
have no use.  No such bits are in the words with an immediate, and none are set in a word
that the assembler has made.  The word zero is left out, for its text is no source text. -/
theorem assemble_disassemble {w : Word} {op : Operation} (h : decode w = .ok op) (hne : w ≠ 0)
    (hop : ¬ op.NamesLabel) :
    (∀ pc, assemble (disassemble pc w) = .ok [op.stripped w]) ∧
      (∀ rt rs v, op = .addi rt rs v ∨ op = .lw rt rs v ∨ op = .sw rt rs v →
        op.stripped w = w) ∧
      ∀ source words, assemble source = .ok words → w ∈ words → op.stripped w = w := by
  have hfits := fits_of_decode h
  refine ⟨fun pc => ?_, ?_, fun source words hwords hw => stripped_of_assemble h hwords hw⟩
  · have htext : disassemble pc w = op.text pc := by
      unfold disassemble
      rw [if_neg hne, h]
    rw [htext, ← encode_of_decode h]
    exact assemble_of_isWrittenAs (Operation.isWrittenAs_text hfits hop pc) hfits
  · rintro rt rs v (rfl | rfl | rfl) <;> rfl

theorem assemble_disassemble_of_idle_bits :
    assemble (disassemble 0x00400000 0x012A4FE0) = .ok [0x012A4820] ∧
      assemble (disassemble 0x00400000 0x03FFFFC8) = .ok [0x03E00008] ∧
      assemble (disassemble 0x00400000 0x8FA8FFFC) = .ok [0x8FA8FFFC] := by
  have hadd : decode 0x012A4FE0 = .ok (.add 9 9 10) := by decide +kernel
  have hjr : decode 0x03FFFFC8 = .ok (.jr 31) := by decide +kernel
  have hload : decode 0x8FA8FFFC = .ok (.lw 8 29 (-4)) := by decide +kernel
  refine ⟨?_, ?_, ?_⟩
  · exact (assemble_disassemble hadd (by decide) (by decide)).1 _
  · exact (assemble_disassemble hjr (by decide) (by decide)).1 _
  · exact (assemble_disassemble hload (by decide) (by decide)).1 _

end Mips
