import Mips.Instruction.Decoding

/-!
# Encoding and decoding

A word is a row of fields, and packing fields into a word puts each of them where
`Instruction.ofWord` looks for it.  So decoding what `Instruction.encode` has packed
gives the fields back, each cut to its width (`Instruction.ofWord_encode`).  An
operation whose fields all fit their widths (`Operation.Fits`) therefore survives
encoding unchanged (`decode_encode`), and fitting is no restriction on what a word
can hold: whatever a word decodes to fits (`fits_of_decode`).
-/
namespace Mips

namespace Instruction

/-- The instruction with each field cut to its width. -/
def truncated : Instruction → Instruction
  | .r function rs rt rd shift => .r function (rs % 32) (rt % 32) (rd % 32) (shift % 32)
  | .i opCode rs rt immediate => .i opCode (rs % 32) (rt % 32) immediate
  | .j opCode index => .j opCode (index % 0x4000000)

end Instruction

/-! ## The codes -/

theorem RFunction.code_lt (function : RFunction) : function.code < 64 := by
  cases function <;> decide

theorem IOpCode.code_lt (opCode : IOpCode) : opCode.code < 64 := by
  cases opCode <;> decide

theorem JOpCode.code_lt (opCode : JOpCode) : opCode.code < 64 := by
  cases opCode <;> decide

/-! ## Words as rows of fields -/

namespace Instruction

theorem toNat_encode_r (function : RFunction) (rs rt rd shift : Nat) :
    (encode (.r function rs rt rd shift)).toNat =
      rs % 32 * 0x200000 + rt % 32 * 0x10000 + rd % 32 * 0x800 + shift % 32 * 0x40 +
        function.code := by
  have hcode := function.code_lt
  unfold encode
  rw [UInt32.toNat_ofNat_of_lt']
  simp only [UInt32.size]
  omega

theorem toNat_encode_i (opCode : IOpCode) (rs rt : Nat) (immediate : Int16) :
    (encode (.i opCode rs rt immediate)).toNat =
      opCode.code * 0x4000000 + rs % 32 * 0x200000 + rt % 32 * 0x10000 +
        immediate.toUInt16.toNat := by
  have hcode := opCode.code_lt
  have himmediate := immediate.toUInt16.toNat_lt
  unfold encode
  rw [UInt32.toNat_ofNat_of_lt']
  simp only [UInt32.size]
  omega

theorem toNat_encode_j (opCode : JOpCode) (index : Nat) :
    (encode (.j opCode index)).toNat = opCode.code * 0x4000000 + index % 0x4000000 := by
  have hcode := opCode.code_lt
  unfold encode
  rw [UInt32.toNat_ofNat_of_lt']
  simp only [UInt32.size]
  omega

theorem immediate_of_toNat_mod {w : Word} {immediate : Int16}
    (h : w.toNat % 0x10000 = immediate.toUInt16.toNat) : Word.immediate w = immediate := by
  unfold Word.immediate
  rw [h]
  simp [Int16.ofNat]

/-- The word of a register-format instruction shows its fields again. -/
theorem ofWord_encode_r (function : RFunction) (rs rt rd shift : Nat) :
    ofWord (encode (.r function rs rt rd shift)) =
      .ok (.r function (rs % 32) (rt % 32) (rd % 32) (shift % 32)) := by
  have hcode := function.code_lt
  have hword := toNat_encode_r function rs rt rd shift
  generalize encode (.r function rs rt rd shift) = w at hword
  have hop : Word.opCode w = 0 := by unfold Word.opCode; omega
  have hfunction : Word.function w = function.code := by unfold Word.function; omega
  have hrs : Word.rs w = rs % 32 := by unfold Word.rs; omega
  have hrt : Word.rt w = rt % 32 := by unfold Word.rt; omega
  have hrd : Word.rd w = rd % 32 := by unfold Word.rd; omega
  have hshift : Word.shift w = shift % 32 := by unfold Word.shift; omega
  simp [ofWord, hop, hfunction, hrs, hrt, hrd, hshift, RFunction.ofCode?_code]

/-- The word of an immediate-format instruction shows its fields again. -/
theorem ofWord_encode_i (opCode : IOpCode) (rs rt : Nat) (immediate : Int16) :
    ofWord (encode (.i opCode rs rt immediate)) =
      .ok (.i opCode (rs % 32) (rt % 32) immediate) := by
  have hcode := opCode.code_lt
  have hvalue := immediate.toUInt16.toNat_lt
  have hword := toNat_encode_i opCode rs rt immediate
  generalize encode (.i opCode rs rt immediate) = w at hword
  have hop : Word.opCode w = opCode.code := by unfold Word.opCode; omega
  have hrs : Word.rs w = rs % 32 := by unfold Word.rs; omega
  have hrt : Word.rt w = rt % 32 := by unfold Word.rt; omega
  have himmediate : Word.immediate w = immediate := immediate_of_toNat_mod (by omega)
  cases opCode <;> simp [ofWord, hop, IOpCode.code, hrs, hrt, himmediate]

/-- The word of a jump-format instruction shows its fields again. -/
theorem ofWord_encode_j (opCode : JOpCode) (index : Nat) :
    ofWord (encode (.j opCode index)) = .ok (.j opCode (index % 0x4000000)) := by
  have hcode := opCode.code_lt
  have hword := toNat_encode_j opCode index
  generalize encode (.j opCode index) = w at hword
  have hop : Word.opCode w = opCode.code := by unfold Word.opCode; omega
  have hindex : Word.index w = index % 0x4000000 := by unfold Word.index; omega
  cases opCode <;> simp [ofWord, hop, JOpCode.code, hindex]

/-- **Decoding undoes encoding**, up to the bits that a field has no room for. -/
theorem ofWord_encode (instruction : Instruction) :
    ofWord instruction.encode = .ok instruction.truncated := by
  cases instruction with
  | r function rs rt rd shift => exact ofWord_encode_r function rs rt rd shift
  | i opCode rs rt immediate => exact ofWord_encode_i opCode rs rt immediate
  | j opCode index => exact ofWord_encode_j opCode index

end Instruction

/-! ## Operations that fit -/

/-- A number that the sixteen bits of an immediate can hold. -/
def FitsImmediate (value : Int) : Prop :=
  -0x8000 ≤ value ∧ value < 0x8000

namespace Operation

/-- Every field of an operation fits its width in a word. -/
def Fits : Operation → Prop
  | .add rd rs rt | .sub rd rs rt | .and rd rs rt | .or rd rs rt | .slt rd rs rt =>
    rd < 32 ∧ rs < 32 ∧ rt < 32
  | .sll rd rt shift | .srl rd rt shift => rd < 32 ∧ rt < 32 ∧ shift < 32
  | .jr rs => rs < 32
  | .addi rt rs value | .lw rt rs value | .sw rt rs value | .beq rs rt value
  | .bne rs rt value => rs < 32 ∧ rt < 32 ∧ FitsImmediate value
  | .j index | .jal index => index < 0x4000000

/-- An operation that accesses a data word. -/
def AccessesData : Operation → Prop
  | .lw _ _ _ | .sw _ _ _ => True
  | _ => False

/-- Spelling out the fields of an operation loses nothing if they fit. -/
theorem operation_truncated_instruction {operation : Operation} (h : operation.Fits) :
    operation.instruction.truncated.operation = operation := by
  cases operation <;> simp only [Fits, FitsImmediate] at h <;>
    simp only [Operation.instruction, Instruction.truncated, Instruction.operation]
  case j | jal | jr => rw [Nat.mod_eq_of_lt h]
  case add | sub | and | or | slt | sll | srl =>
    obtain ⟨h₁, h₂, h₃⟩ := h
    rw [Nat.mod_eq_of_lt h₁, Nat.mod_eq_of_lt h₂, Nat.mod_eq_of_lt h₃]
  case addi | lw | sw | beq | bne =>
    obtain ⟨h₁, h₂, hlow, hhigh⟩ := h
    rw [Nat.mod_eq_of_lt h₁, Nat.mod_eq_of_lt h₂,
      Int16.toInt_ofInt_of_le (by simpa using hlow) (by simpa using hhigh)]

end Operation

/-- **An operation that fits survives encoding.** -/
theorem decode_encode {operation : Operation} (h : operation.Fits) :
    decode operation.instruction.encode = .ok operation := by
  unfold decode
  rw [Instruction.ofWord_encode]
  exact congrArg Except.ok (Operation.operation_truncated_instruction h)

theorem fitsImmediate_toInt (immediate : Int16) : FitsImmediate immediate.toInt :=
  ⟨by simpa using immediate.le_toInt, by simpa using immediate.toInt_lt⟩

/-- **Whatever a word decodes to fits.** -/
theorem fits_of_decode {w : Word} {operation : Operation} (h : decode w = .ok operation) :
    operation.Fits := by
  have hrs : Word.rs w < 32 := Nat.mod_lt _ (by decide)
  have hrt : Word.rt w < 32 := Nat.mod_lt _ (by decide)
  have hrd : Word.rd w < 32 := Nat.mod_lt _ (by decide)
  have hshift : Word.shift w < 32 := Nat.mod_lt _ (by decide)
  have hindex : Word.index w < 0x4000000 := Nat.mod_lt _ (by decide)
  have himmediate := fitsImmediate_toInt (Word.immediate w)
  unfold decode Instruction.ofWord at h
  split at h
  · -- only the function code of a register-format word is left open
    split at h
    · next function _ =>
      cases h
      cases function <;> simp only [Instruction.operation, Operation.Fits, *, and_self]
    · cases h
  all_goals cases h
  all_goals simp only [Instruction.operation, Operation.Fits, *, and_self]

/-- A word that is no instruction is refused for one of its two codes. -/
theorem error_of_decode {w : Word} {error : DecodeError} (h : decode w = .error error) :
    error = .unknownOpCode (Word.opCode w) ∨ error = .unknownFunction (Word.function w) := by
  unfold decode Instruction.ofWord at h
  split at h
  · split at h
    · cases h
    · cases h
      exact .inr rfl
  all_goals cases h
  exact .inl rfl

end Mips
