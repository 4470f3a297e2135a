import Mips.Proofs.Assembly.Items
import Mips.Proofs.Source.Layout
import Mips.Proofs.Source.SingleLine

/-!
# How items spread over lines

The items of a source text are those of its lines, one line after the other
(`Listing.exists_parse_iff_say`).  A line says a label if there is a colon in it, and what
stands in front of the first colon is the label; the rest of the line, without the
comment, is blank or a statement (`says_iff`).  So a line with a colon says exactly what
two lines say that it can be cut into behind the colon (`says_label_iff`).
-/
namespace Mips

/-- The line says these items.  It has to be readable, or it has none. -/
def Says (raw : List Char) (items : List Item) : Prop :=
  if cleanLine raw = [] then items = []
  else ∃ line, Line.parse (cleanLine raw) = .ok line ∧ line.items = items

/-- The lines say these items, one line after the other. -/
def Say : List (List Char) → List Item → Prop
  | [], items => items = []
  | raw :: rest, items => ∃ first others, Says raw first ∧ Say rest others ∧ first ++ others = items

theorem say_append {before after : List (List Char)} {items : List Item} :
    Say (before ++ after) items ↔
      ∃ front back, Say before front ∧ Say after back ∧ front ++ back = items := by
  induction before generalizing items with
  | nil => simp [Say]
  | cons raw before ih =>
    simp only [List.cons_append, Say, ih]
    constructor
    · rintro ⟨first, _, hfirst, ⟨others, back, hothers, hback, rfl⟩, rfl⟩
      exact ⟨_, back, ⟨first, others, hfirst, hothers, rfl⟩, hback, List.append_assoc _ _ _⟩
    · rintro ⟨_, back, ⟨first, others, hfirst, hothers, rfl⟩, hback, rfl⟩
      exact ⟨first, _, hfirst, ⟨others, back, hothers, hback, rfl⟩,
        (List.append_assoc _ _ _).symm⟩

namespace Listing

/-- The clean lines are read as what all lines say, whatever number the first line has. -/
theorem exists_mapM_readLine_iff {lines : List (List Char)} {n : Nat} {items : List Item} :
    (∃ listing : Listing, ((cleanLinesFrom n lines).mapM fun p => readLine p.1 p.2) = .ok listing ∧
      listing.items = items) ↔ Say lines items := by
  induction lines generalizing n items with
  | nil =>
    constructor
    · rintro ⟨_, h, rfl⟩
      cases h
      rfl
    · rintro rfl
      exact ⟨[], rfl, rfl⟩
  | cons raw lines ih =>
    rw [cleanLinesFrom_cons]
    by_cases hclean : cleanLine raw = []
    · simp only [Say, Says, if_pos hclean, ih]
      constructor
      · intro h
        exact ⟨[], items, rfl, h, rfl⟩
      · rintro ⟨_, others, rfl, h, rfl⟩
        exact h
    · simp only [Say, Says, if_neg hclean, List.mapM_cons, bind_eq_ok]
      constructor
      · rintro ⟨_, ⟨line, hline, rest, hrest, h⟩, rfl⟩
        cases h
        exact ⟨_, _, ⟨_, (readLine_eq_ok_iff.mp hline).2, rfl⟩, ih.mp ⟨rest, hrest, rfl⟩,
          (items_cons line rest).symm⟩
      · rintro ⟨_, _, ⟨line, hline, rfl⟩, hothers, rfl⟩
        obtain ⟨rest, hrest, rfl⟩ := ih.mpr hothers
        refine ⟨_, ⟨⟨n, _, line⟩, readLine_eq_ok_iff.mpr ⟨rfl, hline⟩, rest, hrest, rfl⟩, ?_⟩
        exact items_cons _ rest

/-- **The items of a source text are what its lines say.** -/
theorem exists_parse_iff_say {source : String} {items : List Item} :
    (∃ listing, parse source = .ok listing ∧ listing.items = items) ↔
      Say (linesOf source) items := by
  rw [← exists_mapM_readLine_iff (n := 1), ← cleanLines_eq]
  rfl

end Listing

/-! ## What a single line says -/

theorem Terminal.Matches.not_mem_colon {terminal : Terminal} {text : List Char}
    (h : terminal.Matches text) (hne : terminal ≠ .colon) : ':' ∉ text := by
  intro hmem
  rcases h.eq_singleton_or with ⟨c, rfl, -⟩ | hnone
  · cases List.mem_singleton.mp hmem
    exact hne (h.unique .colon)
  · exact hnone _ hmem (by decide)

theorem IsNumber.not_mem_colon {text : List Char} (h : IsNumber text) : ':' ∉ text := by
  rcases h with h | h
  · exact h.not_mem_colon (by decide)
  · exact h.not_mem_colon (by decide)

theorem Separator.not_mem_colon {separator : List Char} (h : Separator separator) :
    ':' ∉ separator := by
  cases h with
  | comma hbefore hafter =>
    exact List.not_mem_append (hbefore.not_mem (by decide))
      (List.not_mem_cons_of_ne_of_not_mem (by decide) (hafter.not_mem (by decide)))
  | gap _ hblanks => exact hblanks.not_mem (by decide)

theorem Operand.Renders.not_mem_colon {operand : Operand} {text : List Char}
    (h : operand.Renders text) : ':' ∉ text := by
  cases h with
  | register hregister => exact hregister.matches.not_mem_colon (by decide)
  | number htext => exact htext.not_mem_colon
  | label hname => exact hname.not_mem_colon (by decide)
  | offset htext hfront hbefore hbase hafter =>
    have hcolon := hbase.matches.not_mem_colon (by decide)
    have hfront' : ':' ∉ _ := hfront.not_mem (by decide)
    have hbefore' : ':' ∉ _ := hbefore.not_mem (by decide)
    have hafter' : ':' ∉ _ := hafter.not_mem (by decide)
    simp [htext.not_mem_colon, hcolon, hfront', hbefore', hafter']

theorem Operand.Tail.not_mem_colon {operands : List Operand} {text : List Char}
    (h : Operand.Tail operands text) : ':' ∉ text := by
  induction h with
  | nil => exact List.not_mem_nil
  | cons hseparator htext _ ih =>
    exact List.not_mem_append hseparator.not_mem_colon
      (List.not_mem_append htext.not_mem_colon ih)

/-- There is no colon in a statement. -/
theorem Statement.Renders.not_mem_colon {statement : Statement} {text : List Char}
    (h : statement.Renders text) : ':' ∉ text := by
  cases h with
  | bare hname => exact hname.not_mem_colon (by decide)
  | operands hname _ hgap hfirst hrest =>
    exact List.not_mem_append (hname.not_mem_colon (by decide))
      (List.not_mem_append (hgap.not_mem (by decide))
        (List.not_mem_append hfirst.not_mem_colon hrest.not_mem_colon))

/-- A text without a label says nothing if it is blank, or else the statement that stands
between blanks in it. -/
inductive Unlabelled : List Char → List Item → Prop
  | blank {cs : List Char} (h : Blanks cs) : Unlabelled cs []
  | statement {before text after : List Char} {content : Statement} (hbefore : Blanks before)
      (htext : content.Renders text) (hafter : Blanks after) :
      Unlabelled (before ++ (text ++ after)) [.statement content]

/-- The text of a label: a name between blanks. -/
inductive LabelText : List Char → String → Prop
  | intro {before name after : List Char} (hbefore : Blanks before)
      (hname : Terminal.identifier.Matches name) (hafter : Blanks after) :
      LabelText (before ++ (name ++ after)) (String.ofList name)

theorem Unlabelled.not_mem_colon {cs : List Char} {items : List Item} (h : Unlabelled cs items) :
    ':' ∉ cs := by
  cases h with
  | blank h => exact h.not_mem (by decide)
  | statement hbefore htext hafter =>
    exact List.not_mem_append (hbefore.not_mem (by decide))
      (List.not_mem_append htext.not_mem_colon (hafter.not_mem (by decide)))

theorem Unlabelled.eq_nil {items : List Item} (h : Unlabelled [] items) : items = [] := by
  generalize hcs : [] = cs at h
  cases h with
  | blank => rfl
  | statement hbefore htext hafter =>
    obtain ⟨c, rest, rfl, -⟩ := htext.isTight.first
    simp at hcs

section
variable {raw : List Char} {items : List Item}

theorem says_of_blanks (h : Blanks (uncommented raw)) : Says raw [] := by
  have hclean : cleanLine raw = [] := Text.trim_of_blanks h
  rw [Says, if_pos hclean]

theorem says_of_renders {line : Line} {before text after : List Char} (hbefore : Blanks before)
    (htext : line.Renders text) (hafter : Blanks after)
    (hraw : uncommented raw = before ++ (text ++ after)) : Says raw line.items := by
  have hclean : cleanLine raw = text := by
    rw [cleanLine_eq, hraw, Text.trim_append_of_blanks hbefore, Text.trim_append_blanks hafter,
      htext.trim_eq]
  have hne : text ≠ [] := by
    obtain ⟨c, rest, rfl, -⟩ := htext.isTight.first
    exact List.cons_ne_nil c rest
  rw [Says, hclean, if_neg hne]
  exact ⟨line, (Line.parse_eq_ok_iff_renders htext.trim_eq).mpr htext, rfl⟩

theorem says_of_parse {line : Line} (h : Line.parse (cleanLine raw) = .ok line) :
    Says raw line.items := by
  have hne : cleanLine raw ≠ [] := by
    obtain ⟨c, rest, hfirst, -⟩ := (Line.parse_trim_eq_ok_iff.mp h).isTight.first
    rw [cleanLine, hfirst]
    exact List.cons_ne_nil c rest
  rw [Says, if_neg hne]
  exact ⟨line, h, rfl⟩

/-- A line that says something is a rendering between blanks, in front of the comment. -/
theorem Says.blanks_or_renders (h : Says raw items) : (Blanks (uncommented raw) ∧ items = []) ∨
    ∃ line before text after, Blanks before ∧ Line.Renders line text ∧ Blanks after ∧
      uncommented raw = before ++ (text ++ after) ∧ line.items = items := by
  obtain ⟨lead, trail, hlead, htrail, hraw⟩ := Text.exists_trim (uncommented raw)
  rw [← cleanLine_eq] at hraw
  unfold Says at h
  split at h
  · next hclean =>
    rw [hclean] at hraw
    exact .inl ⟨hraw ▸ hlead.append htrail, h⟩
  · obtain ⟨line, hline, hitems⟩ := h
    have htext : line.Renders (cleanLine raw) := Line.parse_trim_eq_ok_iff.mp hline
    exact .inr ⟨line, lead, _, trail, hlead, htext, htrail, hraw, hitems⟩

/-- **What a line says.**  Up to the comment there is no label, or a label, a colon and the
rest. -/
theorem says_iff : Says raw items ↔ Unlabelled (uncommented raw) items ∨
    ∃ front name back others, uncommented raw = front ++ ':' :: back ∧
      LabelText front name ∧ Unlabelled back others ∧ .label name :: others = items := by
  constructor
  · intro h
    rcases h.blanks_or_renders with ⟨hblanks, rfl⟩ |
      ⟨line, lead, text, trail, hlead, htext, htrail, hraw, rfl⟩
    · exact .inl (.blank hblanks)
    · rw [hraw]
      cases htext with
      | statement htext => exact .inl (.statement hlead htext htrail)
      | label hname hgap =>
        refine .inr ⟨_, _, trail, [], ?_, .intro hlead hname hgap, .blank htrail, rfl⟩
        simp
      | labelled hname hgap hgap' htext =>
        refine .inr ⟨_, _, _, _, ?_, .intro hlead hname hgap, .statement hgap' htext htrail, rfl⟩
        simp
  · generalize hraw : uncommented raw = code
    rintro (h | ⟨_, _, _, _, rfl, ⟨hlead, hname, hgap⟩, hback, rfl⟩)
    · cases h with
      | blank h => exact says_of_blanks (hraw ▸ h)
      | statement hbefore htext hafter =>
        exact says_of_renders hbefore (.statement htext) hafter hraw
    · cases hback with
      | blank h => exact says_of_renders hlead (.label hname hgap) h (by simp [hraw])
      | statement hgap' htext htrail =>
        exact says_of_renders hlead (.labelled hname hgap hgap' htext) htrail (by simp [hraw])

end

/-- A line without a colon says no label. -/
theorem says_iff_unlabelled {raw : List Char} {items : List Item} (h : ':' ∉ uncommented raw) :
    Says raw items ↔ Unlabelled (uncommented raw) items := by
  rw [says_iff]
  refine or_iff_left ?_
  rintro ⟨front, name, back, others, hraw, -⟩
  rw [hraw] at h
  exact h List.mem_append_cons_self

section
variable {label instruction : List Char} {items : List Item} (hlabel : ':' ∉ label)
  (hcomment : '#' ∉ label) (hinstruction : ':' ∉ uncommented instruction)
include hlabel hcomment hinstruction

/-- A line with one colon says the label in front of it and what stands behind it. -/
theorem says_label_iff : Says (label ++ ':' :: instruction) items ↔
    ∃ name others, LabelText label name ∧ Unlabelled (uncommented instruction) others ∧
      .label name :: others = items := by
  have hcode : uncommented (label ++ ':' :: instruction) =
      label ++ ':' :: uncommented instruction :=
    uncommented_append hcomment (':' :: instruction)
  rw [says_iff, hcode]
  constructor
  · rintro (h | ⟨front, name, back, others, hsplit, hfront, hback, rfl⟩)
    · exact absurd List.mem_append_cons_self h.not_mem_colon
    · obtain ⟨rfl, -, rfl⟩ := (List.append_cons_inj_of_notMem hlabel hinstruction).mp hsplit
      exact ⟨name, others, hfront, hback, rfl⟩
  · rintro ⟨name, others, hfront, hback, rfl⟩
    exact .inr ⟨label, name, _, others, rfl, hfront, hback, rfl⟩

/-- **A label can stand on its own line.**  A line says the same when it is cut into two
behind the colon. -/
theorem say_label_iff (rest : List (List Char)) :
    Say ((label ++ ':' :: instruction) :: rest) items ↔
      Say ((label ++ [':']) :: instruction :: rest) items := by
  have hnone : ':' ∉ uncommented [] := List.not_mem_nil
  simp only [Say, says_label_iff hlabel hcomment hinstruction,
    says_label_iff hlabel hcomment hnone, says_iff_unlabelled hinstruction]
  constructor
  · rintro ⟨_, others, ⟨name, first, hname, hfirst, rfl⟩, hothers, rfl⟩
    exact ⟨[.label name], _, ⟨name, [], hname, .blank .nil, rfl⟩,
      ⟨first, others, hfirst, hothers, rfl⟩, rfl⟩
  · rintro ⟨_, _, ⟨name, nothing, hname, hblank, rfl⟩, ⟨first, others, hfirst, hothers, rfl⟩, rfl⟩
    cases hblank.eq_nil
    exact ⟨_, others, ⟨name, first, hname, hfirst, rfl⟩, hothers, rfl⟩

end

end Mips
