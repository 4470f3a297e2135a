import Mips.CommandLine.Simulator
import Mips.Proofs.CommandLine.MachineCode
import Mips.Proofs.Machine.Steps
import Mips.Proofs.Memory.Stores

/-!
# What the simulator reports

Three kinds of report, each told by what stands in it and not by how it is written.  The
report of a state (`ShowsState`) has a line for every register and one for every data word
that is not zero.  The report of a fault (`TellsFault`) has the program counter and a message
for the fault, and the report of a limit (`TellsLimit`) has the limit.

A report of a fault can be told from every other report (`TellsFault.unique`,
`TellsFault.not_tellsLimit`): no two faults have a message in common, and an address begins
with a digit.
-/
namespace Mips

/-- The text shows a word in hexadecimal, by eight digits in either letter case. -/
def Word.IsHexText (w : Word) (text : String) : Prop :=
  ∃ digits : List Char, text = "0x" ++ String.ofList digits ∧ digits.length = 8 ∧
    Numeral.Spells 16 digits w.toNat

/-- What a message says of an address that cannot be accessed. -/
inductive AccessFault.Complaint : (Address → AccessFault) → String → Prop
  | outsideText : Complaint (.outOfRange .text) " is outside of instruction memory"
  | outsideData : Complaint (.outOfRange .data) " is outside of data memory"
  | misalignedText : Complaint (.misaligned .text) " is not word-aligned in instruction memory"
  | misalignedData : Complaint (.misaligned .data) " is not word-aligned in data memory"

/-- The message of a fault. -/
inductive Fault.IsToldBy : Fault → String → Prop
  | access {fault : Address → AccessFault} {complaint hex : String} {address : Address}
      (hfault : AccessFault.Complaint fault complaint) (hhex : Word.IsHexText address hex) :
      IsToldBy (.access (fault address)) ("address " ++ hex ++ complaint)
  | unknownOpCode {code : Nat} {digits : List Char} (hlength : digits.length = 2)
      (hdigits : Numeral.Spells 16 digits code) :
      IsToldBy (.undecodable (.unknownOpCode code)) ("unknown op code 0x" ++ String.ofList digits)
  | unknownFunction {code : Nat} {digits : List Char} (hlength : digits.length = 2)
      (hdigits : Numeral.Spells 16 digits code) :
      IsToldBy (.undecodable (.unknownFunction code))
        ("unknown R-type function 0x" ++ String.ofList digits)
  | noRegister (number : Nat) :
      IsToldBy (.noRegister number) ("invalid register number " ++ toString number)

namespace CommandLine.Simulator

/-- The text shows a word in hexadecimal and as a signed number. -/
def IsValueText (value : Word) (text : String) : Prop :=
  ∃ hex, Word.IsHexText value hex ∧ text = hex ++ " (" ++ toString value.toInt32.toInt ++ ")"

/-- The line shows register `n` of a machine, with its name on the right of a column that
holds a dollar sign and five more characters. -/
def IsRegisterLine (m : Machine) (n : Nat) (line : String) : Prop :=
  ∃ name value text, Register.numberOfName? name = some n ∧ m.registers.read n = .ok value ∧
    IsValueText value text ∧
    line = String.ofList (List.replicate (5 - name.length) ' ') ++ "$" ++ name ++ " = " ++ text

/-- The line shows a data word with its address. -/
def IsDataLine (entry : Address × Word) (line : String) : Prop :=
  ∃ hex text, Word.IsHexText entry.1 hex ∧ IsValueText entry.2 text ∧ line = hex ++ " = " ++ text

/-- The outcome shows the registers of a machine, in the order of their numbers, and below
them its data words other than zero, the highest address first. -/
inductive ShowsState (m : Machine) : Outcome → Prop
  | intro {registers data : List String} {used : List (Address × Word)} {output : String}
      (hregisters : List.Forall₂ (IsRegisterLine m) (List.range 32) registers)
      (hsorted : used.Pairwise fun entry entry' => entry'.1 < entry.1)
      (hused : ∀ address value, (address, value) ∈ used ↔
        m.data.read address = .ok value ∧ value ≠ 0)
      (hdata : List.Forall₂ IsDataLine used data)
      (houtput : output = String.join
        (("Registers:" :: registers ++ "Data memory:" :: data).map (· ++ "\n"))) :
      ShowsState m { stdout := output }

/-- The outcome is a failure with this message: a line on the standard error stream, and
nothing else. -/
def FailsWith (message : String) (outcome : Outcome) : Prop :=
  outcome = { stderr := "Error: \"" ++ message ++ "\"\n", exitCode := 1 }

/-- The outcome tells a fault and the address of its instruction. -/
def TellsFault (pc : Address) (fault : Fault) (outcome : Outcome) : Prop :=
  ∃ hex message, Word.IsHexText pc hex ∧ fault.IsToldBy message ∧
    FailsWith (hex ++ ": " ++ message) outcome

/-- The outcome tells the limit on steps. -/
def TellsLimit (limit : Nat) (outcome : Outcome) : Prop :=
  FailsWith ("program did not finish within " ++ toString limit ++ " steps") outcome

end CommandLine.Simulator

/-! ## Numbers in reports -/

theorem Numeral.toString_eq_decimal (v : Int) : toString v = Numeral.decimal v := by
  refine String.toList_inj.mp ?_
  cases v with
  | ofNat n => rfl
  | negSucc n => simp [Numeral.decimal, toString, Int.repr]

theorem Numeral.toString_inj {n n' : Nat} (h : toString n = toString n') : n = n' := by
  have hdigits := congrArg String.toList h
  simp only [Nat.toString_eq_repr, Nat.toList_repr] at hdigits
  have hspells : Spells 10 (Nat.toDigits 10 n) n := spells_toDigits (by decide) n
  rw [hdigits] at hspells
  exact hspells.unique (by decide) (spells_toDigits (by decide) n')

theorem Word.isHexText_upperHex (w : Word) : Word.IsHexText w (Word.upperHex w) := by
  have hshows := CommandLine.Assembler.shows_upperHex w
  generalize Word.upperHex w = text at hshows ⊢
  cases hshows with
  | @hexadecimal _ _ digits hline hlength _ hvalue =>
    refine ⟨digits, String.toList_inj.mp ?_, hlength, hvalue⟩
    rw [hline]
    simp

theorem Word.isHexText_lowerHex (w : Word) : Word.IsHexText w (Word.lowerHex w) :=
  ⟨_, rfl, Numeral.length_fixed 16 8 w.toNat, Numeral.spells_fixed (by decide) w.toNat_lt⟩

namespace Word.IsHexText

variable {w w' : Word} {text text' : String}

theorem length_toList (h : IsHexText w text) : text.toList.length = 10 := by
  obtain ⟨digits, rfl, hlength, -⟩ := h
  simp [hlength]

theorem unique (h : IsHexText w text) (h' : IsHexText w' text) : w = w' := by
  obtain ⟨digits, rfl, -, hdigits⟩ := h
  obtain ⟨digits', htext, -, hdigits'⟩ := h'
  have hsame : digits = digits' := by
    have hlists := congrArg String.toList htext
    simp only [String.toList_append, String.toList_ofList] at hlists
    exact List.append_cancel_left hlists
  rw [← hsame] at hdigits'
  exact UInt32.toNat_inj.mp (hdigits.unique (by decide) hdigits')

/-- Where one word ends the other does, too. -/
theorem append_inj (h : IsHexText w text) (h' : IsHexText w' text') {rest rest' : String}
    (heq : text ++ rest = text' ++ rest') : w = w' ∧ rest = rest' := by
  have hlists := congrArg String.toList heq
  simp only [String.toList_append] at hlists
  obtain ⟨htext, hrest⟩ :=
    List.append_inj hlists (h.length_toList.trans h'.length_toList.symm)
  cases String.toList_inj.mp htext
  exact ⟨h.unique h', String.toList_inj.mp hrest⟩

end Word.IsHexText

/-! ## Messages of faults -/

theorem AccessFault.Complaint.unique {fault fault' : Address → AccessFault}
    {complaint complaint' : String} (h : Complaint fault complaint)
    (h' : Complaint fault' complaint') (heq : complaint = complaint') : fault = fault' := by
  cases h <;> cases h' <;> first | rfl | exact absurd heq (by decide)

/-- **A message tells one fault.** -/
theorem Fault.IsToldBy.unique {fault fault' : Fault} {message : String}
    (h : fault.IsToldBy message) (h' : fault'.IsToldBy message) : fault = fault' := by
  generalize heq : message = message' at h'
  have hlists := congrArg String.toList heq
  cases h with
  | access hfault hhex =>
    cases h' with
    | access hfault' hhex' =>
      rw [String.append_assoc, String.append_assoc] at heq
      obtain ⟨rfl, hcomplaint⟩ := hhex.append_inj hhex' ((String.append_right_inj _).mp heq)
      rw [hfault.unique hfault' hcomplaint]
    | _ => simp at hlists
  | unknownOpCode _ hdigits =>
    cases h' with
    | unknownOpCode _ hdigits' =>
      cases String.ofList_inj.mp ((String.append_right_inj _).mp heq)
      rw [hdigits.unique (by decide) hdigits']
    | _ => simp at hlists
  | unknownFunction _ hdigits =>
    cases h' with
    | unknownFunction _ hdigits' =>
      cases String.ofList_inj.mp ((String.append_right_inj _).mp heq)
      rw [hdigits.unique (by decide) hdigits']
    | _ => simp at hlists
  | noRegister number =>
    cases h' with
    | noRegister number' =>
      rw [Numeral.toString_inj ((String.append_right_inj _).mp heq)]
    | _ => simp at hlists

theorem AccessFault.exists_complaint (access : AccessFault) :
    ∃ fault complaint address, Complaint fault complaint ∧ access = fault address := by
  rcases access with ⟨_ | _, address⟩ | ⟨_ | _, address⟩
  · exact ⟨_, _, address, .outsideText, rfl⟩
  · exact ⟨_, _, address, .outsideData, rfl⟩
  · exact ⟨_, _, address, .misalignedText, rfl⟩
  · exact ⟨_, _, address, .misalignedData, rfl⟩

theorem AccessFault.Complaint.message_eq {fault : Address → AccessFault} {complaint : String}
    (h : Complaint fault complaint) (address : Address) :
    (Fault.access (fault address)).message =
      "address " ++ Word.upperHex address ++ complaint := by
  unfold Fault.message
  cases h <;> simp only [message, Segment.name, String.append_assoc, String.reduceAppend]

theorem Fault.isToldBy_access (access : AccessFault) :
    (Fault.access access).IsToldBy (Fault.access access).message := by
  obtain ⟨fault, complaint, address, hfault, rfl⟩ := access.exists_complaint
  rw [hfault.message_eq address]
  exact .access hfault (Word.isHexText_upperHex address)

/-- **Whatever a step meets is told by its message.** -/
theorem Machine.isToldBy_message {m : Machine} {fault : Fault} (h : m.step.2 = some fault) :
    fault.IsToldBy fault.message := by
  have hdigits : ∀ {code : Nat}, code < 0x40 →
      Numeral.Spells 16 (Numeral.fixed 16 2 code) code := fun hlt =>
    Numeral.spells_fixed (by decide) (by omega)
  obtain ⟨m', hsteps⟩ := exists_steps_of_fault h
  cases hsteps with
  | unfetched => exact Fault.isToldBy_access _
  | @undecodable w _ hstatus hfetch hdecode =>
    have hword := w.toNat_lt
    rcases error_of_decode hdecode with rfl | rfl
    · have hcode : Word.opCode w < 0x40 := by
        unfold Word.opCode
        omega
      have htext : (Fault.undecodable (.unknownOpCode (Word.opCode w))).message =
          "unknown op code 0x" ++ String.ofList (Numeral.fixed 16 2 (Word.opCode w)) := rfl
      rw [htext]
      exact .unknownOpCode (Numeral.length_fixed 16 2 _) (hdigits hcode)
    · have hcode : Word.function w < 0x40 := Nat.mod_lt _ (by decide)
      have htext : (Fault.undecodable (.unknownFunction (Word.function w))).message =
          "unknown R-type function 0x" ++
            String.ofList (Numeral.fixed 16 2 (Word.function w)) := rfl
      rw [htext]
      exact .unknownFunction (Numeral.length_fixed 16 2 _) (hdigits hcode)
  | denied _ _ _ _ hfault =>
    cases hfault with
    | outOfRange => exact Fault.isToldBy_access _
    | misaligned => exact Fault.isToldBy_access _

/-! ## Quoted texts -/

namespace Text

/-- Inside quotation marks the character stands for itself, whatever else can be shown. -/
def IsBare (c : Char) : Prop :=
  0x20 ≤ c.toNat ∧ c.toNat < 0x7F ∧ c ≠ '"' ∧ c ≠ '\\'

instance : DecidablePred IsBare := fun c =>
  inferInstanceAs (Decidable (0x20 ≤ c.toNat ∧ c.toNat < 0x7F ∧ c ≠ '"' ∧ c ≠ '\\'))

variable {c : Char} {text : String}

/-- Every character between the blank and the tilde can be shown as it is. -/
theorem isPrintable_of_ascii (hlow : 0x20 ≤ c.toNat) (hhigh : c.toNat < 0x7F) :
    isPrintable c = true := by
  have hranges : (unprintableRanges.toList.all fun r => r.2 < 0x20 || 0x7F ≤ r.1) = true := by
    decide +kernel
  unfold isPrintable
  rw [← Array.any_toList, Bool.not_eq_true', List.any_eq_false]
  rintro ⟨first, last⟩ hmem
  have hrange := List.all_eq_true.mp hranges _ hmem
  simp only [Bool.or_eq_true, decide_eq_true_eq] at hrange
  simp only [Bool.and_eq_true, decide_eq_true_eq]
  omega

theorem escape_of_isBare (h : IsBare c) : escape c = [c] := by
  obtain ⟨hlow, hhigh, hquote, hslash⟩ := h
  have hcontrol : c ∉ ['\x00', '\t', '\n', '\r'] := by
    intro hmem
    simp only [List.mem_cons, List.not_mem_nil, or_false] at hmem
    rcases hmem with rfl | rfl | rfl | rfl <;> exact absurd hlow (by decide)
  simp only [List.mem_cons, List.not_mem_nil, or_false, not_or] at hcontrol
  obtain ⟨hzero, htab, hfeed, hreturn⟩ := hcontrol
  unfold escape
  rw [if_neg hzero, if_neg htab, if_neg hfeed, if_neg hreturn, if_neg hquote, if_neg hslash,
    if_pos (isPrintable_of_ascii hlow hhigh)]

/-- Inside quotation marks the text stands for itself. -/
def IsBareText (text : String) : Prop :=
  ∀ c ∈ text.toList, IsBare c

instance : DecidablePred IsBareText := fun text =>
  List.decidableBAll IsBare text.toList

theorem IsBareText.append {text text' : String} (h : IsBareText text) (h' : IsBareText text') :
    IsBareText (text ++ text') := by
  intro c hc
  rw [String.toList_append, List.mem_append] at hc
  exact hc.elim (h c) (h' c)

/-- A text that needs no escapes stands between the quotation marks as it is. -/
theorem IsBareText.quoted_eq (h : IsBareText text) : quoted text = "\"" ++ text ++ "\"" := by
  have hescape : ∀ cs : List Char, (∀ c ∈ cs, IsBare c) → cs.flatMap escape = cs := by
    intro cs hcs
    induction cs with
    | nil => rfl
    | cons c cs ih =>
      obtain ⟨hc, hrest⟩ := List.forall_mem_cons.mp hcs
      rw [List.flatMap_cons, escape_of_isBare hc, ih hrest, List.singleton_append]
  refine String.toList_inj.mp ?_
  rw [quoted, hescape _ h]
  simp

/-- Digits need no escapes. -/
theorem isBare_of_spells {base : Nat} (hbase : base ≤ 16) {digits : List Char} {n : Nat}
    (h : Numeral.Spells base digits n) : IsBareText (String.ofList digits) := by
  have hdigit : ∀ d < 16, IsBare (Nat.digitChar d) ∧ IsBare (Nat.digitChar d).toUpper := by
    decide
  rw [IsBareText, String.toList_ofList]
  obtain ⟨values, -, hvalues, -⟩ := h
  induction hvalues with
  | nil => exact fun _ hc => absurd hc List.not_mem_nil
  | cons hd _ ih =>
    refine List.forall_mem_cons.mpr ⟨?_, ih⟩
    obtain ⟨hlt, rfl | rfl⟩ := hd
    · exact (hdigit _ (Nat.lt_of_lt_of_le hlt hbase)).1
    · exact (hdigit _ (Nat.lt_of_lt_of_le hlt hbase)).2

theorem isBare_toString (n : Nat) : IsBareText (toString n) :=
  isBare_of_spells (by decide) (Numeral.spells_toDigits (by decide) n)

end Text

theorem Word.IsHexText.isBare {w : Word} {text : String} (h : Word.IsHexText w text) :
    Text.IsBareText text := by
  obtain ⟨digits, rfl, -, hdigits⟩ := h
  exact .append (by decide) (Text.isBare_of_spells (by decide) hdigits)

theorem Fault.IsToldBy.isBare {fault : Fault} {message : String} (h : fault.IsToldBy message) :
    Text.IsBareText message := by
  cases h with
  | access hfault hhex =>
    refine .append (.append (by decide) hhex.isBare) ?_
    cases hfault <;> decide
  | unknownOpCode _ hdigits => exact .append (by decide) (Text.isBare_of_spells (by decide) hdigits)
  | unknownFunction _ hdigits =>
    exact .append (by decide) (Text.isBare_of_spells (by decide) hdigits)
  | noRegister number => exact .append (by decide) (Text.isBare_toString number)

namespace CommandLine.Simulator

/-! ## Failures -/

variable {pc pc' : Address} {fault fault' : Fault} {outcome : Outcome} {limit : Nat}

theorem FailsWith.unique {message message' : String} (h : FailsWith message outcome)
    (h' : FailsWith message' outcome) : message = message' := by
  have hstderr := congrArg Outcome.stderr (h.symm.trans h')
  exact (String.append_right_inj _).mp ((String.append_left_inj _).mp hstderr)

theorem failsWith_failure {message : String} (h : Text.IsBareText message) :
    FailsWith message (.failure (Text.quoted message)) := by
  have hstderr : "Error: " ++ ("\"" ++ message ++ "\"") ++ "\n" =
      "Error: \"" ++ message ++ "\"\n" := String.toList_inj.mp (by simp)
  rw [FailsWith, Outcome.failure, h.quoted_eq, hstderr]

theorem tellsFault_failure (h : fault.IsToldBy fault.message) : TellsFault pc fault
    (.failure (Text.quoted (Word.lowerHex pc ++ ": " ++ fault.message))) := by
  have hpc := Word.isHexText_lowerHex pc
  exact ⟨_, _, hpc, h, failsWith_failure (.append (.append hpc.isBare (by decide)) h.isBare)⟩

theorem tellsLimit_failure (limit : Nat) : TellsLimit limit
    (.failure (Text.quoted
      ("program did not finish within " ++ Numeral.decimal limit ++ " steps"))) :=
  failsWith_failure (.append (.append (by decide) (Text.isBare_toString limit)) (by decide))

/-- A report tells one fault at one place. -/
theorem TellsFault.unique (h : TellsFault pc fault outcome) (h' : TellsFault pc' fault' outcome) :
    pc = pc' ∧ fault = fault' := by
  obtain ⟨hex, message, hhex, hmessage, hfails⟩ := h
  obtain ⟨hex', message', hhex', hmessage', hfails'⟩ := h'
  have hsame := hfails.unique hfails'
  rw [String.append_assoc, String.append_assoc] at hsame
  obtain ⟨rfl, hrest⟩ := hhex.append_inj hhex' hsame
  cases (String.append_right_inj _).mp hrest
  exact ⟨rfl, hmessage.unique hmessage'⟩

/-- No fault is reported as a limit: an address begins with a digit. -/
theorem TellsFault.not_tellsLimit (h : TellsFault pc fault outcome) :
    ¬ TellsLimit limit outcome := by
  intro hlimit
  obtain ⟨_, message, ⟨digits, rfl, -, -⟩, -, hfails⟩ := h
  have hlists := congrArg String.toList (hfails.unique hlimit)
  simp at hlists

/-! ## States -/

theorem isValueText_wordText (value : Word) : IsValueText value (wordText value) := by
  refine ⟨_, Word.isHexText_upperHex value, ?_⟩
  rw [Numeral.toString_eq_decimal]
  rfl

theorem isRegisterLine_of_getElem? {m : Machine} {n : Nat} {entry : String × Word}
    (h : m.registers.contents[n]? = some entry) :
    IsRegisterLine m n (Text.alignRight 6 entry.1 ++ " = " ++ wordText entry.2) := by
  obtain ⟨column, value⟩ := entry
  rw [Registers.contents, List.getElem?_zip_eq_some, List.getElem?_map,
    Option.map_eq_some_iff] at h
  obtain ⟨⟨name, hname, rfl⟩, hvalue⟩ := h
  refine ⟨name, value, _, Register.numberOfName?_eq_some_iff.mpr hname, ?_,
    isValueText_wordText value, ?_⟩
  · unfold Registers.read
    rw [← Vector.getElem?_toList, hvalue]
  · have hpadding : 6 - ("$" ++ name).length = 5 - name.length := by
      rw [String.length_append]
      have hdollar : "$".length = 1 := rfl
      omega
    rw [Text.alignRight, hpadding]
    simp only [String.append_assoc]

theorem length_contents (registers : Registers) : registers.contents.length = 32 := by
  rw [Registers.contents, List.length_zip, List.length_map, Vector.length_toList]
  rfl

theorem isRegisterLine_contents (m : Machine) :
    List.Forall₂ (IsRegisterLine m) (List.range 32) (m.registers.contents.map fun entry =>
      Text.alignRight 6 entry.1 ++ " = " ++ wordText entry.2) := by
  refine List.forall₂_iff_get.mpr ⟨?_, fun n hn hn' => ?_⟩
  · rw [List.length_range, List.length_map, length_contents]
  · simp only [List.get_eq_getElem, List.getElem_range, List.getElem_map]
    exact isRegisterLine_of_getElem? (List.getElem?_eq_getElem _)

theorem isDataLine_contents (data : DataSegment) :
    List.Forall₂ IsDataLine data.contents (data.contents.map fun entry =>
      Word.upperHex entry.1 ++ " = " ++ wordText entry.2) := by
  rw [List.forall₂_map_right_iff, List.forall₂_same]
  exact fun entry _ => ⟨_, _, Word.isHexText_upperHex entry.1, isValueText_wordText entry.2, rfl⟩

/-- **What is printed shows the state.** -/
theorem showsState_finalState (m : Machine) : ShowsState m { stdout := finalState m } := by
  refine .intro (isRegisterLine_contents m) m.data.contents_sorted
    (fun _ _ => DataSegment.mem_contents_iff) (isDataLine_contents m.data) ?_
  simp [finalState, registerLine, dataLine, String.join_append, Function.comp_def,
    String.append_assoc]

end CommandLine.Simulator
end Mips
