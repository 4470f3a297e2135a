import Mips.Proofs.Assembly.Meaning
import Mips.Proofs.Source.Layout

/-!
# Layout does not matter

Each pass over a listing looks at what the lines say and copies their numbers and texts
into errors.  So listings that say the same on lines with other numbers give the same
words, or the same problem with the same text and another number (`Relaid.alike_assemble`).
-/
namespace Mips

section
variable {C : Nat → Nat → Prop} {listing listing' : Listing}
  (h : List.Forall₂ (Located.Moves C) listing listing')
include h

theorem Symbols.alike_define (symbols : Symbols) (count : Nat) :
    Alike (Located.Moves C) Eq (define symbols count listing) (define symbols count listing') := by
  induction h generalizing symbols count with
  | nil => exact .ok rfl
  | @cons line line' rest rest' hline _ ih =>
    simp only [define, hline.value]
    cases line.value.label? with
    | none => exact ih _ _
    | some name =>
      by_cases hcontains : symbols.contains name
      · simp only [if_pos hcontains]
        exact .error (hline.withValue _)
      · simp only [if_neg hcontains]
        exact ih _ _

theorem Listing.forall₂_statements :
    List.Forall₂ (Located.Moves C) listing.statements listing'.statements := by
  induction h with
  | nil => exact .nil
  | @cons line line' rest rest' hline _ ih =>
    unfold statements at ih ⊢
    rw [List.filterMap_cons, List.filterMap_cons, hline.value]
    cases line.value.statement? with
    | none => exact ih
    | some statement => exact .cons (hline.withValue statement) ih

end

/-- Related lists give related elements the same places. -/
theorem forall₂_zipIdx {α β : Type} {R : α → β → Prop} {l : List α} {l' : List β}
    (h : List.Forall₂ R l l') (n : Nat) :
    List.Forall₂ (fun p q => R p.1 q.1 ∧ p.2 = q.2) (l.zipIdx n) (l'.zipIdx n) := by
  induction h generalizing n with
  | nil => exact .nil
  | cons hab _ ih => exact .cons ⟨hab, rfl⟩ (ih (n + 1))

namespace Program

variable {C : Nat → Nat → Prop}

theorem alike_resolveAt {line line' : Located Statement} (h : line.Moves C line')
    (addressOf : String → Option Address) (slot : Nat) :
    Alike (Located.Moves C) Eq (resolveAt addressOf slot line)
      (resolveAt addressOf slot line') := by
  unfold resolveAt
  rw [h.value]
  cases line.value.resolve addressOf (textAddress slot) with
  | ok op => exact .ok rfl
  | error error => exact .error (h.withValue _)

theorem alike_ofListing {listing listing' : Listing}
    (h : List.Forall₂ (Located.Moves C) listing listing') :
    Alike (Located.Moves C) Eq (ofListing listing) (ofListing listing') := by
  refine (Symbols.alike_define h ∅ 0).bind ?_
  rintro symbols _ rfl
  have hoperations : Alike (Located.Moves C) (List.Forall₂ Eq)
      (listing.statements.zipIdx.mapM fun p => resolveAt (symbols[·]?) p.2 p.1)
      (listing'.statements.zipIdx.mapM fun p => resolveAt (symbols[·]?) p.2 p.1) := by
    refine .mapM (forall₂_zipIdx (Listing.forall₂_statements h) 0) ?_
    rintro ⟨line, slot⟩ ⟨line', _⟩ ⟨hline, rfl⟩
    exact alike_resolveAt hline _ _
  refine hoperations.bind fun operations operations' heq => ?_
  rw [List.forall₂_eq_eq_eq] at heq
  exact .ok (by rw [heq])

end Program

/-- **Layout does not matter.**  Source texts that differ in their layout only have the
same words, or the same problem in corresponding lines. -/
theorem Relaid.alike_assemble {a b : String} (h : Relaid a b) :
    Alike (Located.Moves (CorrespondingLines a b)) Eq (assemble a) (assemble b) := by
  let located (error : Located SyntaxError) : AssemblyError :=
    error.withValue (.malformed error.value)
  have hlisting : Alike (Located.Moves (CorrespondingLines a b))
      (List.Forall₂ (Located.Moves (CorrespondingLines a b)))
      ((Listing.parse a).mapError located) ((Listing.parse b).mapError located) := by
    refine h.alike_parse.mapError fun error error' herror => ?_
    simp only [located, herror.value]
    exact herror.withValue _
  refine (hlisting.bind fun _ _ h => Program.alike_ofListing h).map ?_
  rintro program _ rfl
  rfl

end Mips
