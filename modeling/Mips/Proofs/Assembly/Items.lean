import Mathlib.Data.List.Nodup
import Mips.Proofs.Assembly.Meaning
import Mips.Proofs.Assembly.Renaming

/-!
# What a listing says

A line with a label and a statement says two things, and says them in order.  The items of
a listing are all that its lines say, one behind the other, however they are spread over
lines.  Labels, their slots and the statements are a matter of the items alone
(`Listing.labels_eq`, `Listing.defines_iff`, `Listing.map_value_statements`).

Items carry others along if they say the same about the same slots, with new names for the
labels and perhaps more labels (`Item.Carries`).  Listings with such items denote the same
operations (`Program.ofListing_of_carries`).
-/
namespace Mips

/-- One thing that a line says. -/
inductive Item where
  /-- Here is the label `name`. -/
  | label (name : String)
  /-- Here is a statement. -/
  | statement (content : Statement)
deriving DecidableEq

/-- What a line says, in order. -/
def Line.items : Line → List Item
  | .label name => [.label name]
  | .statement none content => [.statement content]
  | .statement (some name) content => [.label name, .statement content]

namespace Item

/-- The label that an item puts somewhere. -/
def label? : Item → Option String
  | .label name => some name
  | .statement _ => none

/-- The statement that an item is. -/
def statement? : Item → Option Statement
  | .label _ => none
  | .statement content => some content

/-- The item with other names for its labels. -/
def renamed (ρ : String → String) : Item → Item
  | .label name => .label (ρ name)
  | .statement content => .statement (content.renamed ρ)

/-- The labels among items. -/
def labels (items : List Item) : List String :=
  items.filterMap label?

/-- The statements among items. -/
def statements (items : List Item) : List Statement :=
  items.filterMap statement?

/-- The label `name` is among the items and has `slot` statements in front of it. -/
def Places (items : List Item) (name : String) (slot : Nat) : Prop :=
  ∃ before after, items = before ++ .label name :: after ∧ (statements before).length = slot

variable {items before after : List Item} {name other : String} {slot : Nat}

theorem labels_append (before after : List Item) :
    labels (before ++ after) = labels before ++ labels after :=
  List.filterMap_append

theorem statements_append (before after : List Item) :
    statements (before ++ after) = statements before ++ statements after :=
  List.filterMap_append

theorem not_places_nil (name : String) (slot : Nat) : ¬ Places [] name slot := by
  rintro ⟨before, after, h, -⟩
  simp at h

theorem places_label_cons : Places (.label other :: items) name slot ↔
    (other = name ∧ slot = 0) ∨ Places items name slot := by
  constructor
  · rintro ⟨before, after, h, rfl⟩
    cases before with
    | nil =>
      cases h
      exact .inl ⟨rfl, rfl⟩
    | cons first before =>
      cases h
      exact .inr ⟨before, after, rfl, rfl⟩
  · rintro (⟨rfl, rfl⟩ | ⟨before, after, rfl, rfl⟩)
    · exact ⟨[], items, rfl, rfl⟩
    · exact ⟨.label other :: before, after, rfl, rfl⟩

theorem places_statement_cons {content : Statement} :
    Places (.statement content :: items) name slot ↔
      ∃ k, Places items name k ∧ slot = 1 + k := by
  constructor
  · rintro ⟨before, after, h, rfl⟩
    cases before with
    | nil => cases h
    | cons first before =>
      cases h
      exact ⟨_, ⟨before, after, rfl, rfl⟩, Nat.add_comm _ 1⟩
  · rintro ⟨_, ⟨before, after, rfl, rfl⟩, rfl⟩
    exact ⟨.statement content :: before, after, rfl, Nat.add_comm _ 1⟩

/-- The labels behind items stand behind their statements. -/
theorem places_append : Places (before ++ after) name slot ↔ Places before name slot ∨
    ∃ k, Places after name k ∧ slot = (statements before).length + k := by
  induction before generalizing slot with
  | nil => simp [not_places_nil, statements]
  | cons item before ih =>
    cases item with
    | label other =>
      rw [List.cons_append, places_label_cons, places_label_cons, ih, or_assoc]
      rfl
    | statement content =>
      have hlength : (statements (.statement content :: before)).length =
          1 + (statements before).length := Nat.add_comm _ 1
      rw [List.cons_append, places_statement_cons, places_statement_cons, hlength]
      simp only [ih]
      constructor
      · rintro ⟨slot, hslot | ⟨k, hk, rfl⟩, rfl⟩
        · exact .inl ⟨slot, hslot, rfl⟩
        · exact .inr ⟨k, hk, (Nat.add_assoc _ _ _).symm⟩
      · rintro (⟨slot, hslot, rfl⟩ | ⟨k, hk, rfl⟩)
        · exact ⟨slot, .inl hslot, rfl⟩
        · exact ⟨_, .inr ⟨k, hk, rfl⟩, Nat.add_assoc _ _ _⟩

end Item

theorem Line.items_renamed (ρ : String → String) (line : Line) :
    (line.renamed ρ).items = line.items.map (Item.renamed ρ) := by
  cases line with
  | label name => rfl
  | statement label? content => cases label? <;> rfl

/-! ## The items of a listing -/

namespace Listing

/-- What the lines of a listing say, in order. -/
def items (listing : Listing) : List Item :=
  listing.flatMap fun line => line.value.items

variable {listing : Listing} {name : String} {slot : Nat}

theorem items_cons (line : Located Line) (rest : Listing) :
    items (line :: rest) = line.value.items ++ items rest :=
  List.flatMap_cons

theorem labels_eq (listing : Listing) : listing.labels = Item.labels listing.items := by
  induction listing with
  | nil => rfl
  | cons line rest ih =>
    rw [items_cons, Item.labels_append, ← ih]
    obtain ⟨number, text, value⟩ := line
    cases value with
    | label name => rfl
    | statement label? content => cases label? <;> rfl

theorem map_value_statements (listing : Listing) :
    listing.statements.map Located.value = Item.statements listing.items := by
  induction listing with
  | nil => rfl
  | cons line rest ih =>
    rw [items_cons, Item.statements_append, ← ih]
    obtain ⟨number, text, value⟩ := line
    cases value with
    | label name => rfl
    | statement label? content => cases label? <;> rfl

theorem defines_iff : listing.Defines name slot ↔ Item.Places listing.items name slot := by
  induction listing generalizing slot with
  | nil => exact iff_of_false (not_defines_nil name slot) (Item.not_places_nil name slot)
  | cons line rest ih =>
    obtain ⟨number, text, value⟩ := line
    rw [defines_cons, items_cons]
    simp only [ih]
    cases value with
    | label other =>
      simp [Line.items, Line.label?, lineCount, Line.statement?, Item.places_label_cons]
    | statement label? content =>
      cases label? <;>
        simp [Line.items, Line.label?, lineCount, Line.statement?, Item.places_label_cons,
          Item.places_statement_cons]

end Listing

/-! ## Items that say the same -/

namespace Item

/-- What `items` say, `items'` say too, with new names for the labels and perhaps with more
labels: every label stands in front of the same statement, the statements are the same,
and no label is there twice. -/
structure Carries (ρ : String → String) (items items' : List Item) : Prop where
  nodup : (labels items').Nodup
  places : ∀ name slot, Places items name slot → Places items' (ρ name) slot
  statements : statements items' = (statements items).map (Statement.renamed ρ)

variable {items before after : List Item} {name : String}

theorem map_renamed_id (contents : List Statement) :
    contents.map (Statement.renamed id) = contents :=
  (List.map_congr_left fun content _ => content.renamed_id).trans (List.map_id _)

theorem carries_refl (hnodup : (labels items).Nodup) : Carries id items items :=
  ⟨hnodup, fun _ _ h => h, (map_renamed_id _).symm⟩

/-- A label that is not there yet can be put anywhere. -/
theorem carries_insert (hnodup : (labels (before ++ after)).Nodup)
    (hnew : name ∉ labels (before ++ after)) :
    Carries id (before ++ after) (before ++ .label name :: after) where
  nodup := by
    have hlabels : labels (before ++ .label name :: after) =
        labels before ++ name :: labels after :=
      labels_append before (.label name :: after)
    rw [labels_append] at hnodup hnew
    rw [hlabels]
    exact List.nodup_middle.mpr (List.nodup_cons.mpr ⟨hnew, hnodup⟩)
  places other slot h := by
    rcases places_append.mp h with h | ⟨k, hk, rfl⟩
    · exact places_append.mpr (.inl h)
    · exact places_append.mpr (.inr ⟨k, places_label_cons.mpr (.inr hk), rfl⟩)
  statements := by
    rw [map_renamed_id, statements_append, statements_append]
    rfl

theorem labels_renamed (ρ : String → String) (items : List Item) :
    labels (items.map (renamed ρ)) = (labels items).map ρ := by
  induction items with
  | nil => rfl
  | cons item items ih =>
    cases item with
    | label name => exact congrArg (ρ name :: ·) ih
    | statement content => exact ih

theorem statements_renamed (ρ : String → String) (items : List Item) :
    statements (items.map (renamed ρ)) = (statements items).map (Statement.renamed ρ) := by
  induction items with
  | nil => rfl
  | cons item items ih =>
    cases item with
    | label name => exact ih
    | statement content => exact congrArg (content.renamed ρ :: ·) ih

/-- Labels can have any other names that differ. -/
theorem carries_renamed {ρ : String → String} (hnodup : (labels items).Nodup)
    (hρ : Set.InjOn ρ {name | name ∈ labels items}) : Carries ρ items (items.map (renamed ρ)) where
  nodup := by
    rw [labels_renamed]
    exact hnodup.map_on hρ
  places name slot := by
    rintro ⟨before, after, rfl, rfl⟩
    refine ⟨before.map (renamed ρ), after.map (renamed ρ), List.map_append, ?_⟩
    rw [statements_renamed, List.length_map]
  statements := statements_renamed ρ items

end Item

/-! ## Programs that say the same -/

variable {listing listing' : Listing} {ρ : String → String}

/-- **What a listing says is all that matters.**  Listings whose items carry each other
along denote the same operations. -/
theorem Program.ofListing_of_carries {program : Program} (h : ofListing listing = .ok program)
    (hcarries : Item.Carries ρ listing.items listing'.items) :
    ∃ symbols, ofListing listing' = .ok ⟨symbols, program.operations⟩ := by
  obtain ⟨symbols, hsymbols⟩ :=
    Symbols.exists_ofListing_iff.mpr ((Listing.labels_eq listing').symm ▸ hcarries.nodup)
  have haddress : ∀ name address, program.symbols[name]? = some address →
      symbols[ρ name]? = some address := by
    intro name address hname
    obtain ⟨slot, hslot, rfl⟩ := (getElem?_symbols h).mp hname
    have hplaces := hcarries.places name slot (Listing.defines_iff.mp hslot)
    exact (Symbols.getElem?_eq_some_iff hsymbols).mpr ⟨slot, Listing.defines_iff.mpr hplaces, rfl⟩
  have hvalues : listing'.statements.map Located.value =
      (listing.statements.map Located.value).map (Statement.renamed ρ) := by
    rw [Listing.map_value_statements, Listing.map_value_statements, hcarries.statements]
  have hlength : listing'.statements.length = listing.statements.length := by
    simpa using congrArg List.length hvalues
  refine ⟨symbols, ofListing_eq_ok_iff.mpr ⟨hsymbols, ?_⟩⟩
  refine List.forall₂_iff_get.mpr ⟨?_, fun i hi hi' => ?_⟩
  · rw [List.length_zipIdx, hlength, length_operations h]
  · rw [List.length_zipIdx] at hi
    obtain ⟨line, hline⟩ : ∃ line, listing.statements[i]? = some line :=
      ⟨_, List.getElem?_eq_getElem (hlength ▸ hi)⟩
    obtain ⟨op, hop, hresolve⟩ := resolve_of_ofListing h hline
    have hvalue : listing'.statements[i].value = line.value.renamed ρ := by
      have hget := congrArg (·[i]?) hvalues
      simpa [hi, hline] using hget
    obtain ⟨_, rfl⟩ := List.getElem?_eq_some_iff.mp hop
    simp only [List.get_eq_getElem, List.getElem_zipIdx, Nat.zero_add]
    refine mapError_eq_ok.mpr ?_
    rw [hvalue]
    exact Statement.resolve_renamed haddress hresolve

/-- Source texts whose items carry each other along have the same words. -/
theorem assemble_of_carries (ρ : String → String) {a b : String} {words : List Word}
    (h : assemble a = .ok words) (ha : Listing.parse a = .ok listing)
    (hb : Listing.parse b = .ok listing')
    (hcarries : (Item.labels listing.items).Nodup → Item.Carries ρ listing.items listing'.items) :
    assemble b = .ok words := by
  obtain ⟨_, program, ha', hprogram, rfl⟩ := assemble_eq_ok_iff.mp h
  cases ha.symm.trans ha'
  have hnodup : listing.labels.Nodup :=
    Symbols.exists_ofListing_iff.mp ⟨_, (Program.ofListing_eq_ok_iff.mp hprogram).1⟩
  obtain ⟨symbols, hprogram'⟩ :=
    Program.ofListing_of_carries hprogram (hcarries (Listing.labels_eq listing ▸ hnodup))
  exact assemble_eq_ok_iff.mpr ⟨_, _, hb, hprogram', rfl⟩

end Mips
