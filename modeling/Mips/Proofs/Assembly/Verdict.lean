import Mips.Proofs.Assembly.Meaning
import Mips.Proofs.Source.Listing

/-!
# Which source texts can be assembled

A source text can be assembled if every line of it that is not blank is a rendering, no
label is defined by two lines, and every statement denotes an operation in its slot.
The three are looked at one after the other, each over the whole text, so that a
malformed line is blamed before a repeated label above it, and that before a statement
without a meaning above both.  `Blames` says which line is blamed for what, and
`assemble_verdict` that this is so.
-/
namespace Mips

namespace Listing

/-- `addressOf` gives every label of the listing the address of its slot, and has no other
label. -/
def Maps (listing : Listing) (addressOf : String → Option Address) : Prop :=
  ∀ name address, addressOf name = some address ↔
    ∃ slot, listing.Defines name slot ∧ address = textAddress slot

/-- The statement in a slot, if there is one, denotes an operation there. -/
def Resolves (listing : Listing) (addressOf : String → Option Address) (slot : Nat) : Prop :=
  ∀ line, listing.statements[slot]? = some line →
    ∃ op, line.value.resolve addressOf (textAddress slot) = .ok op

variable {listing : Listing}

theorem Maps.unique {addressOf addressOf' : String → Option Address} (h : listing.Maps addressOf)
    (h' : listing.Maps addressOf') : addressOf = addressOf' := by
  funext name
  ext address
  exact (h name address).trans (h' name address).symm

theorem maps_of_ofListing {symbols : Symbols} (h : Symbols.ofListing listing = .ok symbols) :
    listing.Maps (symbols[·]?) := fun _ _ => Symbols.getElem?_eq_some_iff h

/-- A statement is on a line of the listing. -/
theorem isLineOf_of_mem_statements {source : String} {line : Located Statement}
    (hlisting : listing.Transcribes source) (hline : line ∈ listing.statements) :
    line.IsLineOf source := by
  obtain ⟨whole, hwhole, hstatement⟩ := List.mem_filterMap.mp hline
  obtain ⟨statement, -, rfl⟩ := Option.map_eq_some_iff.mp hstatement
  exact (hlisting.sound whole hwhole).1

end Listing

/-- The line of a source text that is blamed if the text cannot be assembled, and what it
is blamed for. -/
inductive Blames (source : String) : AssemblyError → Prop
  /-- The first line that is a rendering of nothing. -/
  | malformed {number : Nat} {text : List Char} {error : SyntaxError}
      (hclean : IsCleanLine source number text) (herror : Line.parse text = .error error)
      (hbefore : ∀ number' < number, ∀ text', IsCleanLine source number' text' →
        ∃ line, Line.Renders line text') :
      Blames source ⟨number, String.ofList text, .malformed error⟩
  /-- If there is none, the first line with a label that an earlier line defines. -/
  | duplicate {listing : Listing} {line : Located Line} {name : String}
      (hlisting : listing.Transcribes source) (hrepeats : listing.Repeats line name) :
      Blames source (line.withValue (.duplicateLabel name))
  /-- If there is neither, the first line with a statement that denotes no operation. -/
  | unresolved {listing : Listing} {addressOf : String → Option Address} {slot : Nat}
      {line : Located Statement} {error : ResolutionError}
      (hlisting : listing.Transcribes source) (hlabels : listing.labels.Nodup)
      (hmaps : listing.Maps addressOf) (hline : listing.statements[slot]? = some line)
      (herror : line.value.resolve addressOf (textAddress slot) = .error error)
      (hbefore : ∀ slot' < slot, listing.Resolves addressOf slot') :
      Blames source (line.withValue (.unresolved error))

/-- The line that is blamed is a line of the source text and is not blank. -/
theorem Blames.isLineOf {source : String} {e : AssemblyError} (h : Blames source e) :
    e.IsLineOf source := by
  cases h with
  | malformed hclean =>
    rw [Located.IsLineOf, String.toList_ofList]
    exact hclean
  | duplicate hlisting hrepeats =>
    obtain ⟨before, after, rfl, -, -, -⟩ := hrepeats
    exact (hlisting.sound _ List.mem_append_cons_self).1
  | unresolved hlisting _ _ hline =>
    exact Listing.isLineOf_of_mem_statements hlisting (List.mem_of_getElem? hline)

namespace Program

variable {listing : Listing} {addressOf : String → Option Address} {e : AssemblyError}

theorem resolveAt_eq_error_iff {slot : Nat} {line : Located Statement} :
    resolveAt addressOf slot line = .error e ↔
      ∃ error, line.value.resolve addressOf (textAddress slot) = .error error ∧
        e = line.withValue (.unresolved error) := by
  unfold resolveAt
  rw [mapError_eq_error]
  simp only [eq_comm]

theorem exists_resolveAt_iff {slot : Nat} {line : Located Statement} :
    (∃ op, resolveAt addressOf slot line = .ok op) ↔
      ∃ op, line.value.resolve addressOf (textAddress slot) = .ok op := by
  simp only [resolveAt, mapError_eq_ok]

/-- **A listing denotes a program** if its labels differ and its statements resolve. -/
theorem exists_ofListing_iff : (∃ program, ofListing listing = .ok program) ↔
    ∃ addressOf, listing.labels.Nodup ∧ listing.Maps addressOf ∧
      ∀ slot, listing.Resolves addressOf slot := by
  constructor
  · rintro ⟨program, h⟩
    have hsymbols := (ofListing_eq_ok_iff.mp h).1
    refine ⟨_, Symbols.exists_ofListing_iff.mp ⟨_, hsymbols⟩,
      Listing.maps_of_ofListing hsymbols, fun slot line hline => ?_⟩
    obtain ⟨op, -, hop⟩ := resolve_of_ofListing h hline
    exact ⟨op, hop⟩
  · rintro ⟨addressOf, hlabels, hmaps, hresolves⟩
    obtain ⟨symbols, hsymbols⟩ := Symbols.exists_ofListing_iff.mpr hlabels
    cases hmaps.unique (Listing.maps_of_ofListing hsymbols)
    have hoperations : ∃ operations, (listing.statements.zipIdx.mapM fun p =>
        resolveAt (symbols[·]?) p.2 p.1) = .ok operations := by
      refine exists_mapM_iff.mpr fun ⟨line, slot⟩ hmem => ?_
      exact exists_resolveAt_iff.mpr (hresolves slot line (List.mem_zipIdx_iff_getElem?.mp hmem))
    obtain ⟨operations, hoperations⟩ := hoperations
    exact ⟨⟨symbols, operations⟩, ofListing_eq_ok_iff.mpr ⟨hsymbols, mapM_eq_ok_iff.mp hoperations⟩⟩

/-- Resolving stops at the first statement that does not resolve. -/
theorem mapM_resolveAt_eq_error_iff :
    (listing.statements.zipIdx.mapM fun p => resolveAt addressOf p.2 p.1) = .error e ↔
      ∃ slot line error, listing.statements[slot]? = some line ∧
        line.value.resolve addressOf (textAddress slot) = .error error ∧
        (∀ slot' < slot, listing.Resolves addressOf slot') ∧
        e = line.withValue (.unresolved error) := by
  simp only [mapM_eq_error_iff, earliest_zipIdx, resolveAt_eq_error_iff, exists_resolveAt_iff]
  constructor
  · rintro ⟨slot, line, hline, ⟨error, herror, rfl⟩, hbefore⟩
    exact ⟨slot, line, error, hline, herror, hbefore, rfl⟩
  · rintro ⟨slot, line, error, hline, herror, hbefore, rfl⟩
    exact ⟨slot, line, hline, ⟨error, herror, rfl⟩, hbefore⟩

/-- **What is wrong with a listing.**  The first repeated label, and if there is none the
first statement that does not resolve. -/
theorem ofListing_eq_error_iff : ofListing listing = .error e ↔
    (∃ line name, listing.Repeats line name ∧ e = line.withValue (.duplicateLabel name)) ∨
      ∃ addressOf slot line error, listing.labels.Nodup ∧ listing.Maps addressOf ∧
        listing.statements[slot]? = some line ∧
        line.value.resolve addressOf (textAddress slot) = .error error ∧
        (∀ slot' < slot, listing.Resolves addressOf slot') ∧
        e = line.withValue (.unresolved error) := by
  have hoperations : ∀ symbols : Symbols, (do
      let operations ← listing.statements.zipIdx.mapM fun p => resolveAt (symbols[·]?) p.2 p.1
      return ({ symbols, operations } : Program)) = Except.error e ↔
        (listing.statements.zipIdx.mapM fun p => resolveAt (symbols[·]?) p.2 p.1) = .error e := by
    intro symbols
    rw [bind_eq_error]
    exact or_iff_left fun ⟨_, _, h⟩ => nomatch h
  unfold ofListing
  rw [bind_eq_error, Symbols.ofListing_eq_error_iff]
  refine or_congr_right ?_
  constructor
  · rintro ⟨symbols, hsymbols, h⟩
    obtain ⟨slot, line, error, herror⟩ :=
      mapM_resolveAt_eq_error_iff.mp ((hoperations symbols).mp h)
    exact ⟨_, slot, line, error, Symbols.exists_ofListing_iff.mp ⟨_, hsymbols⟩,
      Listing.maps_of_ofListing hsymbols, herror⟩
  · rintro ⟨addressOf, slot, line, error, hlabels, hmaps, herror⟩
    obtain ⟨symbols, hsymbols⟩ := Symbols.exists_ofListing_iff.mpr hlabels
    cases hmaps.unique (Listing.maps_of_ofListing hsymbols)
    exact ⟨symbols, hsymbols, (hoperations symbols).mpr
      (mapM_resolveAt_eq_error_iff.mpr ⟨slot, line, error, herror⟩)⟩

theorem ofSource_eq_error_iff {source : String} : ofSource source = .error e ↔
    (∃ error, Listing.parse source = .error error ∧ error.withValue (.malformed error.value) = e) ∨
      ∃ listing, Listing.parse source = .ok listing ∧ ofListing listing = .error e := by
  unfold ofSource
  rw [bind_eq_error]
  simp only [mapError_eq_ok, mapError_eq_error]

end Program

section
variable {source : String}

theorem exists_assemble_iff : (∃ words, assemble source = .ok words) ↔
    ∃ listing addressOf, Listing.Transcribes listing source ∧ listing.labels.Nodup ∧
      listing.Maps addressOf ∧ ∀ slot, listing.Resolves addressOf slot := by
  simp only [assemble_eq_ok_iff, Listing.parse_eq_ok_iff]
  constructor
  · rintro ⟨words, listing, program, hlisting, hprogram, -⟩
    obtain ⟨addressOf, h⟩ := Program.exists_ofListing_iff.mp ⟨program, hprogram⟩
    exact ⟨listing, addressOf, hlisting, h⟩
  · rintro ⟨listing, addressOf, hlisting, h⟩
    obtain ⟨program, hprogram⟩ := Program.exists_ofListing_iff.mpr ⟨addressOf, h⟩
    exact ⟨_, listing, program, hlisting, hprogram, rfl⟩

theorem assemble_eq_error_iff {e : AssemblyError} :
    assemble source = .error e ↔ Blames source e := by
  unfold assemble
  rw [map_eq_error, Program.ofSource_eq_error_iff]
  simp only [Listing.parse_eq_ok_iff, Listing.parse_eq_error_iff, Program.ofListing_eq_error_iff]
  constructor
  · rintro (⟨_, ⟨number, text, error, hclean, herror, hbefore, rfl⟩, rfl⟩ |
      ⟨listing, hlisting, ⟨line, name, hrepeats, rfl⟩ |
        ⟨addressOf, slot, line, error, hlabels, hmaps, hline, herror, hbefore, rfl⟩⟩)
    · exact .malformed hclean herror hbefore
    · exact .duplicate hlisting hrepeats
    · exact .unresolved hlisting hlabels hmaps hline herror hbefore
  · rintro (⟨hclean, herror, hbefore⟩ | ⟨hlisting, hrepeats⟩ |
      ⟨hlisting, hlabels, hmaps, hline, herror, hbefore⟩)
    · exact .inl ⟨_, ⟨_, _, _, hclean, herror, hbefore, rfl⟩, rfl⟩
    · exact .inr ⟨_, hlisting, .inl ⟨_, _, hrepeats, rfl⟩⟩
    · exact .inr ⟨_, hlisting, .inr ⟨_, _, _, _, hlabels, hmaps, hline, herror, hbefore, rfl⟩⟩

end

/-- **The verdict on a source text.**  It can be assembled exactly if every line that is
not blank is a rendering, the labels of the lines differ, and every statement resolves in
its slot against all labels.  If it cannot, the first line that is a rendering of nothing
is blamed; without one, the first that repeats a label; without that, the first whose
statement does not resolve.  The number that goes with the blame counts all lines, from
one, and the text is the clean text of that line. -/
theorem assemble_verdict (source : String) :
    ((∃ words, assemble source = .ok words) ↔
      ∃ listing addressOf, Listing.Transcribes listing source ∧ listing.labels.Nodup ∧
        listing.Maps addressOf ∧ ∀ slot, listing.Resolves addressOf slot) ∧
    (∀ e, assemble source = .error e ↔ Blames source e) ∧
    ∀ e, assemble source = .error e → e.IsLineOf source :=
  ⟨exists_assemble_iff, fun _ => assemble_eq_error_iff,
    fun _ h => (assemble_eq_error_iff.mp h).isLineOf⟩

theorem assemble_verdict_of_mixed_faults :
    Blames "a: j b\n\na: jr $ra # back\nadd $t0$t1" ⟨4, "add $t0$t1", .malformed .operandsTouch⟩ ∧
      Blames "a: j b\n\na: jr $ra # back" ⟨3, "a: jr $ra", .duplicateLabel "a"⟩ ∧
      Blames "a: j b\n\nc: jr $ra # back" ⟨1, "a: j b", .unresolved (.undefinedLabel "b")⟩ := by
  refine ⟨?_, ?_, ?_⟩
  · exact ((assemble_verdict _).2.1 _).mp (by decide +kernel)
  · exact ((assemble_verdict _).2.1 _).mp (by decide +kernel)
  · exact ((assemble_verdict _).2.1 _).mp (by decide +kernel)

end Mips
