import Mips.Proofs.Source.Completeness
import Mips.Proofs.Text.Pieces
import Mips.Source.Listing

/-!
# What a listing lists

A listing of a source text has one entry for every line that is not blank, in the order
of the lines, and the entry has the number of its line, the clean text and what the text
is a rendering of (`Listing.Transcribes`).  A source text that can be read is read as its
only such listing (`Listing.parse_eq_ok_iff`), and any other is refused for the first
line that is a rendering of nothing (`Listing.parse_eq_error_iff`).
-/
namespace Mips

/-- Line `number` of a source text, counted from one over all lines, is not blank and has
the clean text `text`. -/
def IsCleanLine (source : String) (number : Nat) (text : List Char) : Prop :=
  ∃ i raw, (source.toList.splitOn '\n')[i]? = some raw ∧ number = i + 1 ∧ text = cleanLine raw ∧
    text ≠ []

/-- Something about a line of a source text has the number and the text of that line. -/
def Located.IsLineOf {α : Type} (located : Located α) (source : String) : Prop :=
  IsCleanLine source located.number located.text.toList

theorem Located.eq_of_toList {α : Type} {a b : Located α} (hnumber : a.number = b.number)
    (htext : a.text.toList = b.text.toList) (hvalue : a.value = b.value) : a = b := by
  obtain ⟨number, text, value⟩ := a
  obtain ⟨number', text', value'⟩ := b
  cases hnumber
  cases String.toList_inj.mp htext
  cases hvalue
  rfl

namespace IsCleanLine

variable {source : String} {number : Nat} {text text' : List Char}

theorem unique (h : IsCleanLine source number text) (h' : IsCleanLine source number text') :
    text = text' := by
  obtain ⟨i, raw, hraw, rfl, rfl, -⟩ := h
  obtain ⟨i', raw', hraw', hnumber, rfl, -⟩ := h'
  cases Nat.succ.inj hnumber
  cases hraw.symm.trans hraw'
  rfl

/-- A clean text is read as what it is a rendering of. -/
theorem parse_eq_ok_iff (h : IsCleanLine source number text) {line : Line} :
    Line.parse text = .ok line ↔ line.Renders text := by
  obtain ⟨_, raw, -, -, rfl, -⟩ := h
  exact Line.parse_trim_eq_ok_iff

end IsCleanLine

/-! ## Clean lines -/

section
variable {source : String}

theorem mem_cleanLines {number : Nat} {text : List Char} :
    (number, text) ∈ cleanLines source.toList ↔ IsCleanLine source number text := by
  simp only [cleanLines, Text.lines_eq_splitOn, List.mem_filterMap, Prod.exists,
    List.mk_mem_zipIdx_iff_le_and_getElem?_sub, List.getElem?_map, Option.map_eq_some_iff,
    Option.ite_none_left_eq_some, Option.some.injEq, Prod.mk.injEq]
  constructor
  · rintro ⟨_, i, ⟨hi, raw, hraw, rfl⟩, hne, rfl, rfl⟩
    exact ⟨i - 1, raw, hraw, (Nat.sub_add_cancel hi).symm, rfl, hne⟩
  · rintro ⟨i, raw, hraw, rfl, rfl, hne⟩
    exact ⟨_, i + 1, ⟨Nat.le_add_left 1 i, raw, hraw, rfl⟩, hne, rfl, rfl⟩

theorem pairwise_cleanLines : (cleanLines source.toList).Pairwise fun a b => a.1 < b.1 := by
  rw [cleanLines, List.pairwise_filterMap]
  refine (pairwise_zipIdx _ 1).imp fun {a b} hlt c hc d hd => ?_
  simp only [Option.ite_none_left_eq_some, Option.some.injEq] at hc hd
  obtain ⟨-, rfl⟩ := hc
  obtain ⟨-, rfl⟩ := hd
  exact hlt

end

/-! ## Reading a listing -/

namespace Listing

variable {source : String} {number : Nat} {text : List Char} {listing listing' : Listing}

theorem readLine_eq_ok_iff {line : Located Line} : readLine number text = .ok line ↔
    line = ⟨number, String.ofList text, line.value⟩ ∧ Line.parse text = .ok line.value := by
  unfold readLine
  cases Line.parse text with
  | ok value =>
    constructor
    · rintro ⟨⟩
      exact ⟨rfl, rfl⟩
    · rintro ⟨hline, hvalue⟩
      rw [hline, ← Except.ok.inj hvalue]
  | error error => simp

theorem exists_readLine_iff (h : IsCleanLine source number text) :
    (∃ line, readLine number text = .ok line) ↔ ∃ line, Line.Renders line text := by
  constructor
  · rintro ⟨line, hread⟩
    exact ⟨line.value, h.parse_eq_ok_iff.mp (readLine_eq_ok_iff.mp hread).2⟩
  · rintro ⟨line, hrenders⟩
    exact ⟨⟨number, String.ofList text, line⟩,
      readLine_eq_ok_iff.mpr ⟨rfl, h.parse_eq_ok_iff.mpr hrenders⟩⟩

theorem readLine_eq_error_iff {e : Located SyntaxError} : readLine number text = .error e ↔
    ∃ error, Line.parse text = .error error ∧ e = ⟨number, String.ofList text, error⟩ := by
  unfold readLine
  cases Line.parse text with
  | ok line => simp
  | error error => simp [eq_comm]

/-- The listing has the lines of the source text that are not blank, in their order, and
says of each what it is a rendering of. -/
structure Transcribes (listing : Listing) (source : String) : Prop where
  sound : ∀ line ∈ listing, line.IsLineOf source ∧ line.value.Renders line.text.toList
  complete : ∀ number text, IsCleanLine source number text → ∃ line ∈ listing, line.number = number
  ordered : listing.Pairwise fun a b => a.number < b.number

/-- A source text has one listing at most. -/
theorem Transcribes.unique (h : listing.Transcribes source) (h' : listing'.Transcribes source) :
    listing = listing' := by
  have hsub : ∀ {l l' : Listing}, l.Transcribes source → l'.Transcribes source →
      ∀ line ∈ l, line ∈ l' := by
    intro l l' hl hl' line hline
    obtain ⟨hclean, hrenders⟩ := hl.sound line hline
    obtain ⟨line', hline', hnumber⟩ := hl'.complete _ _ hclean
    obtain ⟨hclean', hrenders'⟩ := hl'.sound line' hline'
    rw [Located.IsLineOf, hnumber] at hclean'
    have htext : line'.text.toList = line.text.toList := hclean'.unique hclean
    have hvalue : line'.value = line.value := (htext ▸ hrenders').unique hrenders
    rwa [← Located.eq_of_toList hnumber htext hvalue]
  have hnodup : ∀ {l : Listing}, l.Transcribes source → l.Nodup := fun hl =>
    hl.ordered.imp fun {a b} (hlt : a.number < b.number) (heq : a = b) =>
      absurd hlt (heq ▸ Nat.lt_irrefl _)
  have hperm : listing.Perm listing' :=
    (List.perm_ext_iff_of_nodup (hnodup h) (hnodup h')).mpr fun line =>
      ⟨hsub h h' line, hsub h' h line⟩
  exact hperm.eq_of_pairwise (fun a b _ _ hlt hlt' => absurd hlt' (Nat.lt_asymm hlt)) h.ordered
    h'.ordered

/-- What has been read is a listing of the source text. -/
theorem transcribes_of_parse (h : parse source = .ok listing) : listing.Transcribes source where
  sound line hline := by
    obtain ⟨⟨number, text⟩, hmem, hread⟩ := exists_of_mem_of_mapM h hline
    obtain ⟨hline, hparse⟩ := readLine_eq_ok_iff.mp hread
    have hclean := mem_cleanLines.mp hmem
    rw [hline, Located.IsLineOf, String.toList_ofList]
    exact ⟨hclean, hclean.parse_eq_ok_iff.mp hparse⟩
  complete number text hclean := by
    obtain ⟨line, hline, hread⟩ := exists_mem_of_mapM h (mem_cleanLines.mpr hclean)
    obtain ⟨hline', -⟩ := readLine_eq_ok_iff.mp hread
    exact ⟨line, hline, by rw [hline']⟩
  ordered := by
    have hnumbers : List.Forall₂ (fun p line => p.1 = line.number) (cleanLines source.toList)
        listing := (mapM_eq_ok_iff.mp h).imp fun p line hread => by
      rw [(readLine_eq_ok_iff.mp hread).1]
    have hmap : (cleanLines source.toList).map Prod.fst = listing.map Located.number := by
      rw [← List.forall₂_eq_eq_eq, List.forall₂_map_left_iff, List.forall₂_map_right_iff]
      exact hnumbers
    have hordered : ((cleanLines source.toList).map Prod.fst).Pairwise (· < ·) :=
      List.pairwise_map.mpr pairwise_cleanLines
    rw [hmap] at hordered
    exact List.pairwise_map.mp hordered

/-- A source text has a listing if every line of it that is not blank is a rendering. -/
theorem exists_parse_iff : (∃ listing, parse source = .ok listing) ↔
    ∀ number text, IsCleanLine source number text → ∃ line, Line.Renders line text := by
  unfold parse
  rw [exists_mapM_iff]
  constructor
  · intro h number text hclean
    exact (exists_readLine_iff hclean).mp (h _ (mem_cleanLines.mpr hclean))
  · rintro h ⟨number, text⟩ hmem
    have hclean := mem_cleanLines.mp hmem
    exact (exists_readLine_iff hclean).mpr (h number text hclean)

/-- **A source text is read as its listing**, if it has one. -/
theorem parse_eq_ok_iff : parse source = .ok listing ↔ listing.Transcribes source := by
  constructor
  · exact transcribes_of_parse
  · intro h
    have hrenders : ∀ number text, IsCleanLine source number text →
        ∃ line, Line.Renders line text := by
      intro number text hclean
      obtain ⟨line, hline, rfl⟩ := h.complete number text hclean
      obtain ⟨hclean', hrenders⟩ := h.sound line hline
      exact ⟨line.value, hclean.unique hclean' ▸ hrenders⟩
    obtain ⟨listing', hparse⟩ := exists_parse_iff.mpr hrenders
    rw [hparse, (transcribes_of_parse hparse).unique h]

/-- **A source text is refused for its first line that is a rendering of nothing.** -/
theorem parse_eq_error_iff {e : Located SyntaxError} : parse source = .error e ↔
    ∃ number text error, IsCleanLine source number text ∧ Line.parse text = .error error ∧
      (∀ number' < number, ∀ text', IsCleanLine source number' text' →
        ∃ line, Line.Renders line text') ∧ e = ⟨number, String.ofList text, error⟩ := by
  unfold parse
  rw [mapM_eq_error_iff, earliest_iff_of_pairwise pairwise_cleanLines]
  constructor
  · rintro ⟨⟨number, text⟩, hmem, herror, hbefore⟩
    obtain ⟨error, hparse, rfl⟩ := readLine_eq_error_iff.mp herror
    refine ⟨number, text, error, mem_cleanLines.mp hmem, hparse, ?_, rfl⟩
    intro number' hlt text' hclean'
    exact (exists_readLine_iff hclean').mp (hbefore _ (mem_cleanLines.mpr hclean') hlt)
  · rintro ⟨number, text, error, hclean, hparse, hbefore, rfl⟩
    refine ⟨_, mem_cleanLines.mpr hclean, readLine_eq_error_iff.mpr ⟨error, hparse, rfl⟩, ?_⟩
    rintro ⟨number', text'⟩ hmem hlt
    have hclean' := mem_cleanLines.mp hmem
    exact (exists_readLine_iff hclean').mpr (hbefore number' hlt text' hclean')

end Listing
end Mips
