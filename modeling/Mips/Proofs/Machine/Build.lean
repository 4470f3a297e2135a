import Mips.Build
import Mips.Proofs.Assembly.Meaning
import Mips.Proofs.Machine.Steps

/-!
# Machines that hold a program

A machine that has been loaded holds the words it was given, and one that has been
built from source text holds the words of the text.  `Machine.exists_program_of_build`
collects what a build says about the source: a listing, the program it denotes, and a
program small enough for its addresses to be numbers without wrap-around.  While such
a machine is in a slot of its program, it fetches a word for what the statement in that
slot denotes (`Machine.fetch_of_build`), and it fetches no other words
(`Machine.denotes_of_fetch`).
-/
namespace Mips

namespace Machine

variable {m : Machine} {config : Config}

theorem load_eq_ok_iff {program : Array Word} : load program config = .ok m ↔
    ∃ text data, TextSegment.load program config.textSize = .ok text ∧
      DataSegment.zeroed config.dataSize = .ok data ∧ start config text data = m := by
  unfold load
  rw [bind_eq_ok]
  refine exists_congr fun text => ?_
  rw [bind_eq_ok]
  constructor
  · rintro ⟨htext, data, hdata, h⟩
    exact ⟨data, htext, hdata, Except.ok.inj h⟩
  · rintro ⟨data, htext, hdata, h⟩
    exact ⟨htext, data, hdata, congrArg Except.ok h⟩

theorem words_of_load {program : Array Word} (h : load program config = .ok m) :
    m.text.words = program := by
  obtain ⟨text, data, htext, -, rfl⟩ := load_eq_ok_iff.mp h
  exact TextSegment.words_of_load htext

theorem buildWithLog_eq_ok_iff {source : String} {records : List Log.Record} :
    buildWithLog source config = .ok (m, records) ↔ ∃ program,
      Program.ofSource source = .ok program ∧ load program.words.toArray config = .ok m ∧
        records = [program.record, m.loadRecord] := by
  unfold buildWithLog loadWithLog
  rw [bind_eq_ok]
  refine exists_congr fun program => ?_
  rw [mapError_eq_ok, bind_eq_ok]
  refine and_congr_right fun _ => ?_
  constructor
  · rintro ⟨⟨m', records'⟩, hloaded, h⟩
    obtain ⟨m'', hload, h'⟩ := bind_eq_ok.mp (mapError_eq_ok.mp hloaded)
    cases h'
    cases h
    exact ⟨hload, rfl⟩
  · rintro ⟨hload, rfl⟩
    exact ⟨_, mapError_eq_ok.mpr (bind_eq_ok.mpr ⟨m, hload, rfl⟩), rfl⟩

/-- Building is assembling and loading. -/
theorem build_eq_ok_iff {source : String} : build source config = .ok m ↔
    ∃ program, Program.ofSource source = .ok program ∧
      load program.words.toArray config = .ok m := by
  unfold build
  rw [map_eq_ok]
  constructor
  · rintro ⟨⟨m', records⟩, h, rfl⟩
    obtain ⟨program, hprogram, hload, -⟩ := buildWithLog_eq_ok_iff.mp h
    exact ⟨program, hprogram, hload⟩
  · rintro ⟨program, hprogram, hload⟩
    exact ⟨_, buildWithLog_eq_ok_iff.mpr ⟨program, hprogram, hload, rfl⟩, rfl⟩

/-- **A machine that has been built holds the program of its source text**, and that
has at most as many instructions as the text segment has slots. -/
theorem exists_program_of_build {source : String} (h : build source config = .ok m) :
    ∃ listing program, Listing.parse source = .ok listing ∧
      Program.ofListing listing = .ok program ∧ m.text.words = program.words.toArray ∧
      listing.statements.length = m.text.size ∧ listing.statements.length < 0x3FF00000 := by
  obtain ⟨program, hprogram, hload⟩ := build_eq_ok_iff.mp h
  obtain ⟨listing, hparse, hprogram⟩ := Program.ofSource_eq_ok_iff.mp hprogram
  have hwords := words_of_load hload
  have hsize : listing.statements.length = m.text.size := by
    rw [← Program.length_operations hprogram, ← Program.words_length, TextSegment.size, hwords,
      List.size_toArray]
  have hmax := m.text.size_le_maxCapacity
  exact ⟨listing, program, hparse, hprogram, hwords, hsize, by omega⟩

/-! ## Fetching what has been assembled -/

variable {built : Machine} {source : String} {listing : Listing}

/-- In the slot of a statement, the word for what the statement denotes is fetched. -/
theorem fetch_of_build (hbuild : build source config = .ok built)
    (hparse : Listing.parse source = .ok listing) (htext : m.text = built.text) {i : Nat}
    {line : Located Statement} (hline : listing.statements[i]? = some line)
    (hpc : m.pc.toNat = 0x400000 + 4 * i) :
    ∃ w op, m.fetch = .ok w ∧ decode w = .ok op ∧
      line.value.Denotes listing.Defines i op := by
  obtain ⟨_, program, hparse', hprogram, hwords, -, hsize⟩ := exists_program_of_build hbuild
  cases hparse.symm.trans hparse'
  obtain ⟨op, hop, hdenotes, hfits⟩ := Program.denotes_of_ofListing hsize hparse hprogram hline
  refine ⟨_, op, fetch_eq_ok_iff.mpr ⟨i, ?_, hpc⟩, decode_encode hfits, hdenotes⟩
  rw [htext, hwords, List.getElem?_toArray, Program.getElem?_words hop]

/-- **Every word that is fetched stands for a statement.** -/
theorem denotes_of_fetch (hbuild : build source config = .ok built)
    (hparse : Listing.parse source = .ok listing) (htext : m.text = built.text) {w : Word}
    (hfetch : m.fetch = .ok w) :
    ∃ (i : Nat) (line : Located Statement) (op : Operation),
      listing.statements[i]? = some line ∧ decode w = .ok op ∧
        line.value.Denotes listing.Defines i op := by
  obtain ⟨_, program, hparse', -, -, hsize, -⟩ := exists_program_of_build hbuild
  cases hparse.symm.trans hparse'
  obtain ⟨i, hword, hpc⟩ := fetch_eq_ok_iff.mp hfetch
  have hi : i < listing.statements.length := by
    rw [hsize, ← htext]
    exact (Array.getElem?_eq_some_iff.mp hword).1
  have hline := List.getElem?_eq_getElem hi
  obtain ⟨w', op, hfetch', hdecode, hdenotes⟩ :=
    fetch_of_build hbuild hparse htext hline hpc
  cases hfetch.symm.trans hfetch'
  exact ⟨i, _, op, hline, hdecode, hdenotes⟩

end Machine
end Mips
