import Mathlib.Data.Nat.Bitwise
import Mips.Proofs.Assembly.Disassembly

/-!
# Instructions and words, there and back

Going from an instruction to its word and back to an operation cuts every field to its
width and drops those that the operation has no use for, and does nothing else
(`Instruction.StandsFor`, `decode_undoes_encode`).  Going from a word to its operation and
back clears the bits without a use (`Operation.idleBits`), so a word stands for an operation
exactly if its other bits are those of any word that does (`encode_undoes_decode`).
-/
namespace Mips

namespace Instruction

/-- The operation that an instruction stands for, form by form: each field that the form
has a use for, cut to its width, and no other.  A constant keeps its sign. -/
inductive StandsFor : Instruction → Operation → Prop
  | threeRegisters {function : RFunction} {f : Nat → Nat → Nat → Operation}
      (hf : Mnemonic.ThreeRegisters (.r function) f) (rs rt rd shift : Nat) :
      StandsFor (.r function rs rt rd shift) (f (rd % 32) (rs % 32) (rt % 32))
  | shift {function : RFunction} {f : Nat → Nat → Nat → Operation}
      (hf : Mnemonic.Shift (.r function) f) (rs rt rd shift : Nat) :
      StandsFor (.r function rs rt rd shift) (f (rd % 32) (rt % 32) (shift % 32))
  | jr (rs rt rd shift : Nat) : StandsFor (.r .jr rs rt rd shift) (.jr (rs % 32))
  | addi (rs rt : Nat) (immediate : Int16) :
      StandsFor (.i .addi rs rt immediate) (.addi (rt % 32) (rs % 32) immediate.toInt)
  | displaced {opCode : IOpCode} {f : Nat → Nat → Int → Operation}
      (hf : Mnemonic.Displaced (.i opCode) f) (rs rt : Nat) (immediate : Int16) :
      StandsFor (.i opCode rs rt immediate) (f (rt % 32) (rs % 32) immediate.toInt)
  | branch {opCode : IOpCode} {f : Nat → Nat → Int → Operation}
      (hf : Mnemonic.Branch (.i opCode) f) (rs rt : Nat) (immediate : Int16) :
      StandsFor (.i opCode rs rt immediate) (f (rs % 32) (rt % 32) immediate.toInt)
  | jump {opCode : JOpCode} {f : Nat → Operation} (hf : Mnemonic.Jump (.j opCode) f)
      (index : Nat) : StandsFor (.j opCode index) (f (index % 0x4000000))

/-- Every field is within its width. -/
def Fits : Instruction → Prop
  | .r _ rs rt rd shift => rs < 32 ∧ rt < 32 ∧ rd < 32 ∧ shift < 32
  | .i _ rs rt _ => rs < 32 ∧ rt < 32
  | .j _ index => index < 0x4000000

/-- The fields without a use are zero. -/
def IsClean : Instruction → Prop
  | .r .add _ _ _ shift | .r .sub _ _ _ shift | .r .and _ _ _ shift | .r .or _ _ _ shift
  | .r .slt _ _ _ shift => shift = 0
  | .r .sll rs _ _ _ | .r .srl rs _ _ _ => rs = 0
  | .r .jr _ rt rd shift => rt = 0 ∧ rd = 0 ∧ shift = 0
  | .i _ _ _ _ | .j _ _ => True

variable {instruction instruction' : Instruction} {op : Operation}

theorem standsFor_operation (instruction : Instruction) :
    instruction.StandsFor instruction.truncated.operation := by
  cases instruction with
  | r function rs rt rd shift =>
    cases function with
    | add => exact .threeRegisters .add rs rt rd shift
    | sub => exact .threeRegisters .sub rs rt rd shift
    | and => exact .threeRegisters .and rs rt rd shift
    | or => exact .threeRegisters .or rs rt rd shift
    | slt => exact .threeRegisters .slt rs rt rd shift
    | sll => exact .shift .sll rs rt rd shift
    | srl => exact .shift .srl rs rt rd shift
    | jr => exact .jr rs rt rd shift
  | i opCode rs rt immediate =>
    cases opCode with
    | addi => exact .addi rs rt immediate
    | lw => exact .displaced .lw rs rt immediate
    | sw => exact .displaced .sw rs rt immediate
    | beq => exact .branch .beq rs rt immediate
    | bne => exact .branch .bne rs rt immediate
  | j opCode index =>
    cases opCode with
    | j => exact .jump .j index
    | jal => exact .jump .jal index

theorem StandsFor.eq_operation (h : instruction.StandsFor op) :
    op = instruction.truncated.operation := by
  cases h with
  | threeRegisters hf => cases hf <;> rfl
  | shift hf => cases hf <;> rfl
  | jr | addi => rfl
  | displaced hf => cases hf <;> rfl
  | branch hf => cases hf <;> rfl
  | jump hf => cases hf <;> rfl

theorem decode_encode_eq (instruction : Instruction) :
    decode instruction.encode = .ok instruction.truncated.operation := by
  unfold decode
  rw [ofWord_encode]
  rfl

theorem truncated_of_fits (h : instruction.Fits) : instruction.truncated = instruction := by
  cases instruction with
  | r function rs rt rd shift =>
    obtain ⟨hrs, hrt, hrd, hshift⟩ := h
    rw [truncated, Nat.mod_eq_of_lt hrs, Nat.mod_eq_of_lt hrt, Nat.mod_eq_of_lt hrd,
      Nat.mod_eq_of_lt hshift]
  | i opCode rs rt immediate =>
    obtain ⟨hrs, hrt⟩ := h
    rw [truncated, Nat.mod_eq_of_lt hrs, Nat.mod_eq_of_lt hrt]
  | j opCode index => rw [truncated, Nat.mod_eq_of_lt h]

theorem fits_instruction (h : op.Fits) : op.instruction.Fits := by
  cases op with
  | add | sub | and | or | slt => exact ⟨h.2.1, h.2.2, h.1, by decide⟩
  | sll | srl => exact ⟨by decide, h.2.1, h.1, h.2.2⟩
  | jr => exact ⟨h, by decide, by decide, by decide⟩
  | addi | lw | sw | beq | bne => exact ⟨h.1, h.2.1⟩
  | j | jal => exact h

/-- No two instructions within their widths share a word. -/
theorem eq_of_encode_eq (h : instruction.Fits) (h' : instruction'.Fits)
    (heq : instruction.encode = instruction'.encode) : instruction = instruction' := by
  have hword := congrArg ofWord heq
  rw [ofWord_encode, ofWord_encode, truncated_of_fits h, truncated_of_fits h'] at hword
  exact Except.ok.inj hword

/-- Nothing is lost on the way to the operation if there is nothing in the fields without
a use. -/
theorem instruction_operation (h : instruction.IsClean) :
    instruction.operation.instruction = instruction := by
  cases instruction with
  | r function rs rt rd shift =>
    cases function with
    | add | sub | and | or | slt | sll | srl =>
      cases h
      rfl
    | jr =>
      obtain ⟨rfl, rfl, rfl⟩ := h
      rfl
  | i opCode rs rt immediate =>
    cases opCode <;>
      simp only [operation, Operation.instruction, Int16.ofInt_toInt]
  | j opCode index => cases opCode <;> rfl

end Instruction

/-- **Decoding undoes encoding.**  Every instruction has a word that is decoded to the one
operation that the instruction stands for.  If its fields are within their widths the word
is its own, and if those without a use are zero the operation is its own, too. -/
theorem decode_undoes_encode (instruction : Instruction) :
    (∃ op, instruction.StandsFor op) ∧
    (∀ op, decode instruction.encode = .ok op ↔ instruction.StandsFor op) ∧
    ∀ instruction' : Instruction, instruction.Fits → instruction'.Fits →
      (instruction.encode = instruction'.encode → instruction = instruction') ∧
      (instruction.IsClean → instruction'.IsClean → ∀ op, instruction.StandsFor op →
        instruction'.StandsFor op → instruction = instruction') := by
  refine ⟨⟨_, instruction.standsFor_operation⟩, fun op => ?_, fun instruction' h h' => ?_⟩
  · rw [instruction.decode_encode_eq, Except.ok.injEq]
    constructor
    · rintro rfl
      exact instruction.standsFor_operation
    · intro h
      exact h.eq_operation.symm
  · refine ⟨Instruction.eq_of_encode_eq h h', fun hclean hclean' op hop hop' => ?_⟩
    have heq := hop.eq_operation.symm.trans hop'.eq_operation
    rw [Instruction.truncated_of_fits h, Instruction.truncated_of_fits h'] at heq
    rw [← Instruction.instruction_operation hclean, heq,
      Instruction.instruction_operation hclean']

theorem decode_undoes_encode_of_wide_fields :
    decode (Instruction.r .sll 7 9 40 36).encode = .ok (.sll 8 9 4) ∧
      (Operation.lw 8 29 (-4)).instruction = .i .lw 29 8 (-4) := by
  have hwide := decode_undoes_encode (.r .sll 7 9 40 36)
  have hload := (decode_undoes_encode (Operation.lw 8 29 (-4)).instruction).2.2
    (.i .lw 29 8 (-4)) ⟨by decide, by decide⟩ ⟨by decide, by decide⟩
  exact ⟨(hwide.2.1 _).mpr (.shift .sll 7 9 40 36), hload.1 (by decide)⟩

/-! ## The bits without a use -/

theorem testBit_sub_two_pow {low high : Nat} (h : low ≤ high) (k : Nat) :
    (2 ^ high - 2 ^ low).testBit k = (decide (low ≤ k) && decide (k < high)) := by
  obtain ⟨d, rfl⟩ := Nat.exists_eq_add_of_le h
  have hsub : 2 ^ (low + d) - 2 ^ low = (2 ^ d - 1) * 2 ^ low := by
    rw [Nat.sub_mul, Nat.pow_add, Nat.one_mul, Nat.mul_comm]
  rw [hsub, Nat.testBit_mul_two_pow, Nat.testBit_two_pow_sub_one]
  by_cases hk : low ≤ k
  · simp [hk]
    omega
  · simp [hk]

namespace Word

variable {low high : Nat}

theorem mod_two_pow_lt (hlow : low ≤ high) (n : Nat) : n % 2 ^ low < 2 ^ high :=
  Nat.lt_of_lt_of_le (Nat.mod_lt _ (Nat.two_pow_pos low)) (Nat.pow_le_pow_right (by decide) hlow)

theorem toNat_cleared (hlow : low ≤ high) (w : Word) :
    (cleared (2 ^ low) (2 ^ high) w).toNat =
      2 ^ high * (w.toNat / 2 ^ high) + w.toNat % 2 ^ low := by
  have hlt := w.toNat_lt
  have hdiv := Nat.div_add_mod w.toNat (2 ^ high)
  have hmod : w.toNat % 2 ^ low ≤ w.toNat % 2 ^ high := by
    rw [← Nat.mod_mod_of_dvd _ (Nat.pow_dvd_pow 2 hlow)]
    exact Nat.mod_le _ _
  unfold cleared
  rw [UInt32.toNat_ofNat', Nat.mul_comm, Nat.mod_eq_of_lt]
  omega

/-- To clear bits is to mask them. -/
theorem cleared_eq_and (hlow : low ≤ high) (hhigh : high ≤ 32) (w : Word) :
    cleared (2 ^ low) (2 ^ high) w = w &&& ~~~UInt32.ofNat (2 ^ high - 2 ^ low) := by
  have hmask : 2 ^ high - 2 ^ low < 2 ^ 32 := by
    have hpos := Nat.two_pow_pos low
    have hpow : 2 ^ high ≤ 2 ^ 32 := Nat.pow_le_pow_right (by decide) hhigh
    omega
  have hnot : (~~~UInt32.ofNat (2 ^ high - 2 ^ low)).toNat =
      2 ^ 32 - (2 ^ high - 2 ^ low + 1) := by
    rw [UInt32.toNat_not, UInt32.toNat_ofNat_of_lt' hmask, Nat.sub_sub, Nat.add_comm]
    rfl
  rw [← UInt32.toNat_inj, toNat_cleared hlow, UInt32.toNat_and, hnot]
  apply Nat.eq_of_testBit_eq
  intro k
  rw [Nat.testBit_two_pow_mul_add _ (mod_two_pow_lt hlow _), Nat.testBit_and,
    Nat.testBit_two_pow_sub_succ hmask, testBit_sub_two_pow hlow, Nat.testBit_mod_two_pow,
    Nat.testBit_div_two_pow]
  by_cases hk : k < high
  · have hk' : k < 32 := by omega
    by_cases hklow : k < low
    · simp [hk, hk', hklow]
    · simp [hk, hk', hklow, Nat.le_of_not_lt hklow]
  · have hsame : k - high + high = k := by omega
    by_cases hk' : k < 32
    · simp [hk, hk', hsame]
    · have hnone : w.toNat.testBit k = false :=
        Nat.testBit_lt_two_pow (Nat.lt_of_lt_of_le w.toNat_lt
          (Nat.pow_le_pow_right (by decide) (Nat.le_of_not_lt hk')))
      simp [hk, hk', hsame, hnone]

end Word

namespace Operation

/-- The bits of a word that its operation has no use for: the shift amount of the
instructions with three registers, the first source register of the two shifts, and all
but the register of `jr`. -/
def idleBits : Operation → Word
  | .add _ _ _ | .sub _ _ _ | .and _ _ _ | .or _ _ _ | .slt _ _ _ => 0x000007C0
  | .sll _ _ _ | .srl _ _ _ => 0x03E00000
  | .jr _ => 0x001FFFC0
  | _ => 0

theorem stripped_eq (op : Operation) (w : Word) : op.stripped w = w &&& ~~~op.idleBits := by
  have hmask : ∀ {low high : Nat} {mask : Word}, low ≤ high → high ≤ 32 →
      UInt32.ofNat (2 ^ high - 2 ^ low) = mask →
      Word.cleared (2 ^ low) (2 ^ high) w = w &&& ~~~mask := by
    rintro low high _ hlow hhigh rfl
    exact Word.cleared_eq_and hlow hhigh w
  cases op with
  | add | sub | and | or | slt => exact hmask (show 6 ≤ 11 by decide) (by decide) rfl
  | sll | srl => exact hmask (show 21 ≤ 26 by decide) (by decide) rfl
  | jr => exact hmask (show 6 ≤ 21 by decide) (by decide) rfl
  | addi | lw | sw | beq | bne | j | jal => simp [stripped, idleBits]

end Operation

/-! ## What a word stands for -/

/-- The op codes of the instructions. -/
def Word.opCodes : List Nat :=
  [0x00, 0x02, 0x03, 0x04, 0x05, 0x08, 0x23, 0x2B]

/-- The function codes of the instructions of the register format. -/
def Word.functionCodes : List Nat :=
  [0x00, 0x02, 0x08, 0x20, 0x22, 0x24, 0x25, 0x2A]

section
variable {w : Word} {op : Operation} {code : Nat}

theorem RFunction.ofCode?_eq_none_iff :
    RFunction.ofCode? code = none ↔ code ∉ Word.functionCodes := by
  unfold RFunction.ofCode?
  split <;> simp_all [Word.functionCodes]

theorem decode_eq_unknownOpCode_iff : decode w = .error (.unknownOpCode code) ↔
    Word.opCode w = code ∧ code ∉ Word.opCodes := by
  unfold decode
  rw [map_eq_error]
  unfold Instruction.ofWord
  split
  case h_1 hcode =>
    -- a word of the register format is refused for its function code alone
    split <;> simp_all [Word.opCodes]
  case h_9 =>
    simp only [Except.error.injEq, DecodeError.unknownOpCode.injEq, iff_self_and]
    rintro rfl
    simp_all [Word.opCodes]
  all_goals simp_all [Word.opCodes]

theorem decode_eq_unknownFunction_iff : decode w = .error (.unknownFunction code) ↔
    Word.opCode w = 0 ∧ Word.function w = code ∧ code ∉ Word.functionCodes := by
  unfold decode
  rw [map_eq_error, ← RFunction.ofCode?_eq_none_iff]
  unfold Instruction.ofWord
  split
  case h_1 hcode =>
    split
    · next hfunction =>
      simp only [hcode, reduceCtorEq, true_and, false_iff]
      rintro ⟨rfl, hnone⟩
      rw [hnone] at hfunction
      cases hfunction
    · next hfunction =>
      simp only [hcode, Except.error.injEq, DecodeError.unknownFunction.injEq, true_and]
      exact ⟨fun h => ⟨h, h ▸ hfunction⟩, And.left⟩
  all_goals simp_all

/-! ## Words with idle bits

A word whose bits in use are those of an encoding is an encoding, too: of the same
instruction, with fields without a use as they are in the word. -/

section
variable {function : RFunction} {f : Nat → Nat → Nat → Operation} {rd rs rt shift : Nat}

theorem decode_threeRegisters (hf : Mnemonic.ThreeRegisters (.r function) f) (hrd : rd < 32)
    (hrs : rs < 32) (hrt : rt < 32)
    (h : Word.cleared 0x40 0x800 w = (Instruction.r function rs rt rd 0).encode) :
    decode w = .ok (f rd rs rt) := by
  have hcode := function.code_lt
  have hlt : w.toNat < 0x100000000 := w.toNat_lt
  have hword : (Instruction.r function rs rt rd (Word.shift w)).encode = w := by
    rw [← UInt32.toNat_inj] at h ⊢
    simp only [Word.cleared, UInt32.toNat_ofNat', Instruction.toNat_encode_r, Word.shift] at h ⊢
    omega
  have hstands := Instruction.StandsFor.threeRegisters hf rs rt rd (Word.shift w)
  rw [Nat.mod_eq_of_lt hrd, Nat.mod_eq_of_lt hrs, Nat.mod_eq_of_lt hrt] at hstands
  rw [← hword, Instruction.decode_encode_eq, hstands.eq_operation]

theorem decode_shift (hf : Mnemonic.Shift (.r function) f) (hrd : rd < 32) (hrt : rt < 32)
    (hshift : shift < 32)
    (h : Word.cleared 0x200000 0x4000000 w = (Instruction.r function 0 rt rd shift).encode) :
    decode w = .ok (f rd rt shift) := by
  have hcode := function.code_lt
  have hlt : w.toNat < 0x100000000 := w.toNat_lt
  have hword : (Instruction.r function (Word.rs w) rt rd shift).encode = w := by
    rw [← UInt32.toNat_inj] at h ⊢
    simp only [Word.cleared, UInt32.toNat_ofNat', Instruction.toNat_encode_r, Word.rs] at h ⊢
    omega
  have hstands := Instruction.StandsFor.shift hf (Word.rs w) rt rd shift
  rw [Nat.mod_eq_of_lt hrd, Nat.mod_eq_of_lt hrt, Nat.mod_eq_of_lt hshift] at hstands
  rw [← hword, Instruction.decode_encode_eq, hstands.eq_operation]

theorem decode_jr (hrs : rs < 32)
    (h : Word.cleared 0x40 0x200000 w = (Instruction.r .jr rs 0 0 0).encode) :
    decode w = .ok (.jr rs) := by
  have hlt : w.toNat < 0x100000000 := w.toNat_lt
  have hword : (Instruction.r .jr rs (Word.rt w) (Word.rd w) (Word.shift w)).encode = w := by
    rw [← UInt32.toNat_inj] at h ⊢
    simp only [Word.cleared, UInt32.toNat_ofNat', Instruction.toNat_encode_r, Word.rt, Word.rd,
      Word.shift, RFunction.code] at h ⊢
    omega
  have hstands := Instruction.StandsFor.jr rs (Word.rt w) (Word.rd w) (Word.shift w)
  rw [Nat.mod_eq_of_lt hrs] at hstands
  rw [← hword, Instruction.decode_encode_eq, hstands.eq_operation]

end

/-- The bits without a use are no part of what a word stands for. -/
theorem decode_of_stripped (hfits : op.Fits) (h : op.stripped w = op.instruction.encode) :
    decode w = .ok op := by
  cases op with
  | add => exact decode_threeRegisters .add hfits.1 hfits.2.1 hfits.2.2 h
  | sub => exact decode_threeRegisters .sub hfits.1 hfits.2.1 hfits.2.2 h
  | and => exact decode_threeRegisters .and hfits.1 hfits.2.1 hfits.2.2 h
  | or => exact decode_threeRegisters .or hfits.1 hfits.2.1 hfits.2.2 h
  | slt => exact decode_threeRegisters .slt hfits.1 hfits.2.1 hfits.2.2 h
  | sll => exact decode_shift .sll hfits.1 hfits.2.1 hfits.2.2 h
  | srl => exact decode_shift .srl hfits.1 hfits.2.1 hfits.2.2 h
  | jr => exact decode_jr hfits h
  | addi | lw | sw | beq | bne | j | jal =>
    -- every bit is in use
    rw [show w = _ from h]
    exact decode_encode hfits

/-- **Encoding undoes decoding.**  A word is refused for its op code, or for its function
code if it is of the register format, exactly if no instruction has that code.  Any other
word is the encoding of its operation but for the bits without a use, and the words for the
same operation are those that agree with it on all other bits. -/
theorem encode_undoes_decode (w : Word) :
    (∀ code, decode w = .error (.unknownOpCode code) ↔
      Word.opCode w = code ∧ code ∉ Word.opCodes) ∧
    (∀ code, decode w = .error (.unknownFunction code) ↔
      Word.opCode w = 0 ∧ Word.function w = code ∧ code ∉ Word.functionCodes) ∧
    ∀ op, decode w = .ok op →
      op.instruction.encode = w &&& ~~~op.idleBits ∧
      ∀ w', decode w' = .ok op ↔ w' &&& ~~~op.idleBits = w &&& ~~~op.idleBits := by
  refine ⟨fun _ => decode_eq_unknownOpCode_iff, fun _ => decode_eq_unknownFunction_iff, ?_⟩
  intro op h
  have hencode := encode_of_decode h
  rw [← op.stripped_eq w]
  refine ⟨hencode, fun w' => ?_⟩
  rw [← op.stripped_eq w', ← hencode]
  constructor
  · intro h'
    exact (encode_of_decode h').symm
  · intro hstripped
    exact decode_of_stripped (fits_of_decode h) hstripped

end

theorem encode_undoes_decode_of_idle_bits :
    (Operation.add 9 9 10).instruction.encode = 0x012A4FE0 &&& ~~~0x000007C0 ∧
      decode 0x012A4820 = .ok (.add 9 9 10) := by
  have hadd : decode 0x012A4FE0 = .ok (.add 9 9 10) := by decide +kernel
  obtain ⟨hencode, hagrees⟩ := (encode_undoes_decode 0x012A4FE0).2.2 _ hadd
  exact ⟨hencode, (hagrees 0x012A4820).mpr (by decide)⟩

end Mips
