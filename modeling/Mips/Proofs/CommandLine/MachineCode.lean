import Mips.CommandLine.Assembler
import Mips.Proofs.Outcome
import Mips.Proofs.Source.Spelling
import Mips.Proofs.Text.Pieces

/-!
# Machine code reads back

The assembler writes its words one to a line, in binary or in hexadecimal, and
`Assembler.Shows` says what such a line looks like: a fixed number of digits that spell the
word.  Whoever cuts the output into lines and reads the digits gets the words again
(`Assembler.readWords?_listing`), so nothing is lost in either format, and each output can be
told from the other (`Assembler.listing_eq_iff`).

Where the output goes makes no difference to what it is, and a source text that cannot be
assembled has none (`Assembler.machine_code_reads_back`).
-/
namespace Mips.CommandLine.Assembler

/-- A line shows a word: with 32 binary digits, or behind `0x` with eight hexadecimal digits
in upper case. -/
inductive Shows : Bool → Word → String → Prop
  | binary {word : Word} {line : String} (hlength : line.toList.length = 32)
      (hdigits : ∀ c ∈ line.toList, c = '0' ∨ c = '1')
      (hvalue : Numeral.Spells 2 line.toList word.toNat) : Shows false word line
  | hexadecimal {word : Word} {line : String} {digits : List Char}
      (hline : line.toList = '0' :: 'x' :: digits) (hlength : digits.length = 8)
      (hdigits : ∀ c ∈ digits, '0' ≤ c ∧ c ≤ '9' ∨ 'A' ≤ c ∧ c ≤ 'F')
      (hvalue : Numeral.Spells 16 digits word.toNat) : Shows true word line

/-- The word that a line stands for. -/
def wordOfLine? : Bool → List Char → Option Word
  | false, line => (Numeral.nat? 2 line).map UInt32.ofNat
  | true, '0' :: 'x' :: digits => (Numeral.nat? 16 digits).map UInt32.ofNat
  | true, _ => none

/-- The words that an output stands for, one to a line.  Behind the last line nothing is
left. -/
def readWords? (hex : Bool) (output : String) : Option (List Word) :=
  (Text.lines output.toList).dropLast.mapM (wordOfLine? hex)

/-- The line of a word without its end. -/
def wordText (hex : Bool) (word : Word) : String :=
  if hex then Word.upperHex word else Word.binary word

variable {hex : Bool} {word : Word} {line : String} {words words' : List Word}

/-! ## One line -/

/-- The binary digits are zero and one. -/
theorem binaryDigit_cases {d : Nat} (hd : d < 2) :
    Nat.digitChar d = '0' ∨ Nat.digitChar d = '1' := by
  revert d
  decide

/-- The hexadecimal digits in upper case are the figures and six letters. -/
theorem upperHexDigit_cases {d : Nat} (hd : d < 16) :
    '0' ≤ (Nat.digitChar d).toUpper ∧ (Nat.digitChar d).toUpper ≤ '9' ∨
      'A' ≤ (Nat.digitChar d).toUpper ∧ (Nat.digitChar d).toUpper ≤ 'F' := by
  revert d
  decide

theorem shows_binary (word : Word) : Shows false word (Word.binary word) := by
  have htext : (Word.binary word).toList = Numeral.fixed 2 32 word.toNat :=
    String.toList_ofList
  refine .binary ?_ ?_ ?_
  · rw [htext, Numeral.length_fixed]
  · intro c hc
    rw [htext] at hc
    obtain ⟨d, hd, rfl⟩ := Numeral.exists_digitChar_of_mem_fixed (by decide : 0 < 2) hc
    exact binaryDigit_cases hd
  · rw [htext]
    exact Numeral.spells_fixed (by decide : 0 < 2) word.toNat_lt

theorem shows_upperHex (word : Word) : Shows true word (Word.upperHex word) := by
  have htext : (Word.upperHex word).toList =
      '0' :: 'x' :: (Numeral.fixed 16 8 word.toNat).map Char.toUpper := by
    have hfront : "0x".toList = ['0', 'x'] := rfl
    rw [Word.upperHex, Numeral.upperHex, String.toList_append, hfront, String.toList_ofList,
      List.cons_append, List.cons_append, List.nil_append]
  refine .hexadecimal htext ?_ ?_ ?_
  · rw [List.length_map, Numeral.length_fixed]
  · intro c hc
    obtain ⟨digit, hdigit, rfl⟩ := List.mem_map.mp hc
    obtain ⟨d, hd, rfl⟩ :=
      Numeral.exists_digitChar_of_mem_fixed (by decide : 0 < 16) hdigit
    exact upperHexDigit_cases hd
  · have hspells : Numeral.Spells 16 (Numeral.fixed 16 8 word.toNat) word.toNat :=
      Numeral.spells_fixed (by decide) word.toNat_lt
    refine hspells.sameLetters (by decide) ?_
    rw [List.forall₂_map_right_iff, List.forall₂_same]
    exact fun c _ => .inr (.inr rfl)

theorem shows_wordText (hex : Bool) (word : Word) : Shows hex word (wordText hex word) := by
  cases hex with
  | false => exact shows_binary word
  | true => exact shows_upperHex word

/-- A line that shows a word is read as that word. -/
theorem Shows.wordOfLine? (h : Shows hex word line) :
    Assembler.wordOfLine? hex line.toList = some word := by
  cases h with
  | binary _ _ hvalue =>
    show (Numeral.nat? 2 line.toList).map UInt32.ofNat = some word
    rw [(Numeral.nat?_eq_some_iff (by decide)).mpr hvalue, Option.map_some,
      UInt32.ofNat_toNat]
  | @hexadecimal _ _ digits hline _ _ hvalue =>
    rw [hline]
    show (Numeral.nat? 16 digits).map UInt32.ofNat = some word
    rw [(Numeral.nat?_eq_some_iff (by decide)).mpr hvalue, Option.map_some,
      UInt32.ofNat_toNat]

theorem Shows.not_mem_newline (h : Shows hex word line) : '\n' ∉ line.toList := by
  intro hmem
  cases h with
  | binary _ hdigits _ =>
    rcases hdigits _ hmem with h | h
    · exact absurd h (by decide)
    · exact absurd h (by decide)
  | hexadecimal hline _ hdigits _ =>
    rw [hline, List.mem_cons, List.mem_cons] at hmem
    rcases hmem with h | h | hmem
    · exact absurd h (by decide)
    · exact absurd h (by decide)
    · exact absurd (hdigits _ hmem) (by decide)

/-! ## The output -/

/-- Lines with their ends are cut at the ends. -/
theorem lines_join {lines : List String} (h : ∀ line ∈ lines, '\n' ∉ line.toList) :
    Text.lines (String.join (lines.map (· ++ "\n"))).toList =
      lines.map String.toList ++ [[]] := by
  rw [Text.lines_eq_splitOn, List.splitOn_eq_splitOnP]
  induction lines with
  | nil => rfl
  | cons line lines ih =>
    have hline : line.toList.splitOnP (· == '\n') = [line.toList] := by
      refine List.splitOnP_eq_singleton fun c hc => ?_
      rw [beq_eq_false_iff_ne]
      rintro rfl
      exact h line List.mem_cons_self hc
    have hcons : (String.join ((line :: lines).map (· ++ "\n"))).toList =
        line.toList ++ '\n' :: (String.join (lines.map (· ++ "\n"))).toList := by
      simp [String.join_cons]
    rw [hcons, List.splitOnP_append_cons _ _ (by decide), hline,
      ih fun line hmem => h line (List.mem_cons_of_mem _ hmem)]
    rfl

/-- The lines of an output are those of its words. -/
theorem listing_eq (hex : Bool) (words : List Word) :
    listing hex words = String.join ((words.map (wordText hex)).map (· ++ "\n")) := by
  rw [List.map_map]
  rfl

theorem lines_listing (hex : Bool) (words : List Word) :
    Text.lines (listing hex words).toList =
      (words.map (wordText hex)).map String.toList ++ [[]] := by
  rw [listing_eq]
  refine lines_join fun line hline => ?_
  obtain ⟨word, -, rfl⟩ := List.mem_map.mp hline
  exact (shows_wordText hex word).not_mem_newline

/-- Reading the lines that show words gives the words. -/
theorem mapM_wordOfLine? {lines : List String} (h : List.Forall₂ (Shows hex) words lines) :
    (lines.map String.toList).mapM (wordOfLine? hex) = some words := by
  induction h with
  | nil => rfl
  | cons hline _ ih =>
    rw [List.map_cons, List.mapM_cons, hline.wordOfLine?, ih]
    rfl

theorem shows_words (hex : Bool) (words : List Word) :
    List.Forall₂ (Shows hex) words (words.map (wordText hex)) := by
  rw [List.forall₂_map_right_iff, List.forall₂_same]
  exact fun word _ => shows_wordText hex word

/-- **An output is read as the words that it was written for.** -/
theorem readWords?_listing (hex : Bool) (words : List Word) :
    readWords? hex (listing hex words) = some words := by
  unfold readWords?
  rw [lines_listing, List.dropLast_concat]
  exact mapM_wordOfLine? (shows_words hex words)

/-- **Either output determines the words**, and so the other output. -/
theorem listing_eq_iff : listing hex words = listing hex words' ↔ words = words' := by
  constructor
  · intro h
    have hread := readWords?_listing hex words
    rw [h, readWords?_listing] at hread
    exact (Option.some.inj hread).symm
  · rintro rfl
    rfl

/-! ## The command -/

section
variable {source : String} (h : assemble source = .ok words)
include h

/-- Without a file to write, the output goes to the standard output. -/
theorem run_eq_stdout (file : String) (hex : Bool) :
    run { file, hex } source = { stdout := listing hex words } := by
  unfold run
  rw [h]

/-- With a file to write, the output goes there and nowhere else. -/
theorem run_eq_file (file path : String) (hex : Bool) :
    run { file, hex, output? := some path } source =
      { file? := some (path, listing hex words) } := by
  unfold run
  rw [h]

theorem assembleToBinary_eq_ok :
    assembleToBinary source = .ok (words.map (wordText false)) := by
  unfold assembleToBinary
  rw [h]
  rfl

/-- The outputs of two source texts are the same in either format exactly if the words
are. -/
theorem run_eq_run_iff {source' : String} (h' : assemble source' = .ok words')
    (file : String) (hex : Bool) :
    run { file, hex } source = run { file, hex } source' ↔ words = words' := by
  rw [run_eq_stdout h, run_eq_stdout h']
  constructor
  · intro hsame
    exact listing_eq_iff.mp (congrArg Outcome.stdout hsame)
  · rintro rfl
    rfl

end

/-- A failure shows its reason and leaves nothing behind. -/
theorem run_of_error {source : String} {error : AssemblyError}
    (h : assemble source = .error error) (options : Options) :
    run options source = .failure (assemblyTerm error) := by
  unfold run
  rw [h]

/-- **The output of the assembler is its machine code.**  For a source text that can be
assembled, the output in either format is a row of lines with nothing behind the last, each
of which shows one word, in order; read line by line it gives the words back, and in binary
its lines are the texts that the library gives for the words.  Without a file to write, this
output is all there is, on the standard output; with one, the file receives the same output
and the standard output stays empty.  Two source texts have the same output in one format
exactly if they have the same in the other.  For a source text that cannot be assembled
nothing goes to the standard output and no file is written. -/
theorem machine_code_reads_back (source : String) :
    (∀ words, assemble source = .ok words → ∀ hex, ∃ lines output,
      List.Forall₂ (Shows hex) words lines ∧
      output = String.join (lines.map (· ++ "\n")) ∧
      Text.lines output.toList = lines.map String.toList ++ [[]] ∧
      readWords? hex output = some words ∧
      (hex = false → assembleToBinary source = .ok lines) ∧
      ∀ file,
        run { file, hex } source = { stdout := output } ∧
        ∀ path,
          run { file, hex, output? := some path } source = { file? := some (path, output) } ∧
          ∀ files name, Destination.ofPath files path = .ok (.file name) →
            (run { file, hex, output? := some path } source).inDirectory files =
              { file? := some (name, output) }) ∧
    (∀ source' words words', assemble source = .ok words → assemble source' = .ok words' →
      ∀ file, run { file } source = run { file } source' ↔
        run { file, hex := true } source = run { file, hex := true } source') ∧
    ∀ error, assemble source = .error error → ∀ options,
      (run options source).stdout = "" ∧ (run options source).file? = none ∧
        ∀ files, (run options source).inDirectory files = run options source := by
  refine ⟨?_, ?_, ?_⟩
  · intro words h hex
    refine ⟨words.map (wordText hex), listing hex words, shows_words hex words,
      listing_eq hex words, lines_listing hex words, readWords?_listing hex words, ?_, ?_⟩
    · rintro rfl
      exact assembleToBinary_eq_ok h
    · intro file
      refine ⟨run_eq_stdout h file hex, fun path => ⟨run_eq_file h file path hex, ?_⟩⟩
      intro files name hpath
      rw [run_eq_file h, Outcome.inDirectory]
      dsimp only
      rw [hpath]
  · intro source' words words' h h' file
    rw [run_eq_run_iff h h', run_eq_run_iff h h']
  · intro error h options
    rw [run_of_error h]
    exact ⟨rfl, rfl, fun _ => rfl⟩

theorem machine_code_reads_back_of_two_instructions :
    assemble "addi $t0, $zero, 5\njr $ra" = .ok [0x20080005, 0x03E00008] ∧
      (∃ lines, assembleToBinary "addi $t0, $zero, 5\njr $ra" = .ok lines ∧
        List.Forall₂ (Shows false) [0x20080005, 0x03E00008] lines) ∧
      (∃ output, readWords? true output = some [0x20080005, 0x03E00008] ∧
        run { file := "five.asm", hex := true } "addi $t0, $zero, 5\njr $ra" =
          { stdout := output } ∧
        (run { file := "five.asm", hex := true, output? := some "./five.hex" }
          "addi $t0, $zero, 5\njr $ra").inDirectory ["five.asm"] =
            { file? := some ("five.hex", output) }) ∧
      (run { file := "five.asm" } "addi $t0, $zero, 5\njr $ra" =
          run { file := "five.asm" } "addi $8, $0, 0x5 # five\njr $31" ↔
        run { file := "five.asm", hex := true } "addi $t0, $zero, 5\njr $ra" =
          run { file := "five.asm", hex := true } "addi $8, $0, 0x5 # five\njr $31") ∧
      (run { file := "five.asm", output? := some "five.bin" } "addi $t0, $zero").stdout = "" ∧
      (run { file := "five.asm", output? := some "five.bin" } "addi $t0, $zero").file? =
        none := by
  have hwords : assemble "addi $t0, $zero, 5\njr $ra" = .ok [0x20080005, 0x03E00008] := by
    decide +kernel
  have hsame : assemble "addi $8, $0, 0x5 # five\njr $31" = .ok [0x20080005, 0x03E00008] := by
    decide +kernel
  have hshort : assemble "addi $t0, $zero" = .error ⟨1, "addi $t0, $zero",
      .unresolved (.operandCount "addi" 3 2)⟩ := by decide +kernel
  have hpath : Destination.ofPath ["five.asm"] "./five.hex" = .ok (.file "five.hex") := by
    decide +kernel
  obtain ⟨hok, hformats, -⟩ := machine_code_reads_back "addi $t0, $zero, 5\njr $ra"
  obtain ⟨-, -, hfails⟩ := machine_code_reads_back "addi $t0, $zero"
  obtain ⟨lines, _, hshows, -, -, -, hbinary, -⟩ := hok _ hwords false
  obtain ⟨_, output, -, -, -, hread, -, hrun⟩ := hok _ hwords true
  obtain ⟨hstdout, hfile⟩ := hrun "five.asm"
  obtain ⟨-, hdirectory⟩ := hfile "./five.hex"
  obtain ⟨hempty, hnone, -⟩ := hfails _ hshort { file := "five.asm", output? := some "five.bin" }
  exact ⟨hwords, ⟨lines, hbinary rfl, hshows⟩,
    ⟨output, hread, hstdout, hdirectory _ _ hpath⟩,
    hformats _ _ _ hwords hsame "five.asm", hempty, hnone⟩

end Mips.CommandLine.Assembler
