import Mips.Proofs.Assembly.Denotation
import Mips.Proofs.Assembly.Labels

/-!
# The meaning of a listing

Assembling counts instructions twice, once to place the labels and once to place the
statements.  Both counts agree, so a statement is resolved against labels that stand
where the listing defines them, in slots that count from the same place
(`Program.denotes_of_ofListing`).  The words of a source text are those of its listing's
program (`assemble_eq_ok_iff`).
-/
namespace Mips

/-- The addresses of two slots differ if the slots do. -/
theorem textAddress_inj {i j : Nat} (hi : i < 0x3FF00000) (hj : j < 0x3FF00000)
    (h : textAddress i = textAddress j) : i = j := by
  have hnat := congrArg UInt32.toNat h
  rw [toNat_textAddress hi, toNat_textAddress hj] at hnat
  omega

namespace Program

theorem ofSource_eq_ok_iff {source : String} {program : Program} :
    ofSource source = .ok program ↔
      ∃ listing, Listing.parse source = .ok listing ∧ ofListing listing = .ok program := by
  unfold ofSource
  rw [bind_eq_ok]
  simp only [mapError_eq_ok]

theorem ofListing_eq_ok_iff {listing : Listing} {program : Program} :
    ofListing listing = .ok program ↔ Symbols.ofListing listing = .ok program.symbols ∧
      List.Forall₂ (fun p op => resolveAt (program.symbols[·]?) p.2 p.1 = .ok op)
        listing.statements.zipIdx program.operations := by
  unfold ofListing
  rw [bind_eq_ok]
  constructor
  · rintro ⟨symbols, hsymbols, h⟩
    obtain ⟨operations, hoperations, h⟩ := bind_eq_ok.mp h
    cases h
    exact ⟨hsymbols, mapM_eq_ok_iff.mp hoperations⟩
  · rintro ⟨hsymbols, hoperations⟩
    exact ⟨_, hsymbols, bind_eq_ok.mpr ⟨_, mapM_eq_ok_iff.mpr hoperations, rfl⟩⟩

theorem words_length (program : Program) :
    program.words.length = program.operations.length := by
  simp [words, instructions]

theorem getElem?_words {program : Program} {i : Nat} {op : Operation}
    (h : program.operations[i]? = some op) :
    program.words[i]? = some op.instruction.encode := by
  simp [words, instructions, h]

variable {listing : Listing} {program : Program}

/-- There is one operation for every statement. -/
theorem length_operations (h : ofListing listing = .ok program) :
    program.operations.length = listing.statements.length := by
  rw [← (ofListing_eq_ok_iff.mp h).2.length_eq, List.length_zipIdx]

/-- The operation in a slot is the one that the statement in the slot is resolved
to. -/
theorem resolve_of_ofListing (h : ofListing listing = .ok program) {i : Nat}
    {line : Located Statement} (hline : listing.statements[i]? = some line) :
    ∃ op, program.operations[i]? = some op ∧
      line.value.resolve (program.symbols[·]?) (textAddress i) = .ok op := by
  obtain ⟨-, hoperations⟩ := ofListing_eq_ok_iff.mp h
  obtain ⟨hlength, hresolve⟩ := List.forall₂_iff_get.mp hoperations
  obtain ⟨hi, rfl⟩ := List.getElem?_eq_some_iff.mp hline
  have hslot : i < listing.statements.zipIdx.length := by rwa [List.length_zipIdx]
  have hi' : i < program.operations.length := hlength ▸ hslot
  have hop := hresolve i hslot hi'
  simp only [List.get_eq_getElem, List.getElem_zipIdx, Nat.zero_add] at hop
  exact ⟨program.operations[i], List.getElem?_eq_getElem hi', mapError_eq_ok.mp hop⟩

/-- The labels of a program are those of its listing. -/
theorem getElem?_symbols (h : ofListing listing = .ok program) {name : String}
    {address : Address} : program.symbols[name]? = some address ↔
      ∃ k, listing.Defines name k ∧ address = textAddress k :=
  Symbols.getElem?_eq_some_iff (ofListing_eq_ok_iff.mp h).1

section
variable (hsize : listing.statements.length < 0x3FF00000)
include hsize

theorem places_symbols (h : ofListing listing = .ok program) :
    Statement.Places (program.symbols[·]?) listing.Defines := by
  intro name address hname
  obtain ⟨k, hk, rfl⟩ := (getElem?_symbols h).mp hname
  exact ⟨k, hk, Nat.lt_of_le_of_lt hk.le hsize, rfl⟩

/-- No label of a program stands in two places. -/
theorem defines_unique (h : ofListing listing = .ok program) (name : String) (k k' : Nat)
    (hk : listing.Defines name k) (hk' : listing.Defines name k') : k = k' := by
  have haddress := (getElem?_symbols h).mpr ⟨k, hk, rfl⟩
  have haddress' := (getElem?_symbols h).mpr ⟨k', hk', rfl⟩
  exact textAddress_inj (Nat.lt_of_le_of_lt hk.le hsize) (Nat.lt_of_le_of_lt hk'.le hsize)
    (Option.some.inj (haddress.symm.trans haddress'))

/-- **The operation in a slot is what the statement in the slot denotes**, and every
field of it fits a word. -/
theorem denotes_of_ofListing {source : String} (hparse : Listing.parse source = .ok listing)
    (h : ofListing listing = .ok program) {i : Nat} {line : Located Statement}
    (hline : listing.statements[i]? = some line) :
    ∃ op, program.operations[i]? = some op ∧ line.value.Denotes listing.Defines i op ∧
      op.Fits := by
  obtain ⟨op, hop, hresolve⟩ := resolve_of_ofListing h hline
  have hi : i < listing.statements.length := (List.getElem?_eq_some_iff.mp hline).1
  have hlexical := Listing.lexical_of_parse hparse (List.mem_of_getElem? hline)
  exact ⟨op, hop, Statement.denotes_of_resolve hlexical (places_symbols hsize h)
    (Nat.lt_trans hi hsize) hresolve⟩

end

end Program

/-- The words of a source text are those of the program that it denotes. -/
theorem assemble_eq_ok_iff {source : String} {words : List Word} :
    assemble source = .ok words ↔ ∃ listing program, Listing.parse source = .ok listing ∧
      Program.ofListing listing = .ok program ∧ program.words = words := by
  unfold assemble
  rw [map_eq_ok]
  simp only [Program.ofSource_eq_ok_iff]
  constructor
  · rintro ⟨program, ⟨listing, hparse, hprogram⟩, hwords⟩
    exact ⟨listing, program, hparse, hprogram, hwords⟩
  · rintro ⟨listing, program, hparse, hprogram, hwords⟩
    exact ⟨program, ⟨listing, hparse, hprogram⟩, hwords⟩

end Mips
