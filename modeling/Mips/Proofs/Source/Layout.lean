import Mips.Proofs.Outcome
import Mips.Proofs.Source.Listing

/-!
# The layout of a source text

A line shows its text with blanks around it and perhaps a comment behind it (`Shows`).
Two source texts that differ in their layout show the same texts in the same order, and
between them any lines that show nothing (`Relayout`).  So a line of the one has a line of
the other that it corresponds to (`Corresponds`), and both texts have the same listing but
for the numbers of the lines, which are those of corresponding lines
(`Relaid.alike_parse`).
-/
namespace Mips

instance : DecidablePred Blanks := fun cs =>
  List.decidableBAll (fun c => Text.isBlank c = true) cs

/-- Nothing, or a text from a comment mark on. -/
def IsComment : List Char → Prop
  | [] => True
  | c :: _ => c = '#'

/-- The line `raw` shows `text` between blanks and in front of a comment, if there is one.
A carriage return at the end of the line is one of the blanks or part of the comment. -/
def Shows (raw text : List Char) : Prop :=
  ∃ lead trail comment, Blanks lead ∧ Blanks trail ∧ IsComment comment ∧ '#' ∉ text ∧
    raw = lead ++ (text ++ (trail ++ comment))

/-- The lines show the same texts in the same order.  Lines that show nothing come and
go. -/
inductive Relayout : List (List Char) → List (List Char) → Prop
  | nil : Relayout [] []
  | add {raw : List Char} {lines lines' : List (List Char)} (hraw : Shows raw [])
      (hrest : Relayout lines lines') : Relayout lines (raw :: lines')
  | drop {raw : List Char} {lines lines' : List (List Char)} (hraw : Shows raw [])
      (hrest : Relayout lines lines') : Relayout (raw :: lines) lines'
  | line {raw raw' text : List Char} {lines lines' : List (List Char)} (hraw : Shows raw text)
      (hraw' : Shows raw' text) (hrest : Relayout lines lines') :
      Relayout (raw :: lines) (raw' :: lines')

/-- The line with the first number corresponds to the line with the second one: they show
the same text, and the lines before them and those behind them differ in their layout
only.  Numbers count from one. -/
inductive Corresponds : List (List Char) → List (List Char) → Nat → Nat → Prop
  | intro {before before' after after' : List (List Char)} {raw raw' text : List Char}
      (hbefore : Relayout before before') (hraw : Shows raw text) (hraw' : Shows raw' text)
      (hafter : Relayout after after') :
      Corresponds (before ++ raw :: after) (before' ++ raw' :: after') (before.length + 1)
        (before'.length + 1)

/-- The lines of a source text. -/
def linesOf (source : String) : List (List Char) :=
  source.toList.splitOn '\n'

/-- The source texts differ in their layout only. -/
def Relaid (a b : String) : Prop :=
  Relayout (linesOf a) (linesOf b)

/-- The numbers of corresponding lines of two source texts. -/
def CorrespondingLines (a b : String) : Nat → Nat → Prop :=
  Corresponds (linesOf a) (linesOf b)

/-! ## Clean texts -/

namespace Text

theorem trim_append_of_blanks {lead : List Char} (h : Blanks lead) (cs : List Char) :
    trim (lead ++ cs) = trim cs := by
  rw [trim, List.dropWhile_append_of_pos h, ← trim]

theorem trim_of_blanks {cs : List Char} (h : Blanks cs) : trim cs = [] := by
  rw [trim, List.dropWhile_eq_nil_iff.mpr h]
  rfl

theorem trim_append_blanks {trail : List Char} (h : Blanks trail) (cs : List Char) :
    trim (cs ++ trail) = trim cs := by
  rw [trim, List.dropWhile_append]
  split
  · next hempty =>
    -- there is nothing but blanks, so the blanks at the end are taken for those in front
    rw [← trim, trim_of_blanks h, trim, List.isEmpty_iff.mp hempty]
    rfl
  · have hreverse : ∀ c ∈ trail.reverse, isBlank c := fun c hc => h c (List.mem_reverse.mp hc)
    rw [List.reverse_append, List.dropWhile_append_of_pos hreverse, ← trim]

/-- A text is its trimmed text between blanks. -/
theorem exists_trim (cs : List Char) :
    ∃ lead trail, Blanks lead ∧ Blanks trail ∧ cs = lead ++ (trim cs ++ trail) := by
  refine ⟨cs.takeWhile isBlank, ((cs.dropWhile isBlank).reverse.takeWhile isBlank).reverse,
    fun c hc => List.mem_takeWhile_imp hc,
    fun c hc => List.mem_takeWhile_imp (List.mem_reverse.mp hc), ?_⟩
  rw [trim, ← List.reverse_append, List.takeWhile_append_dropWhile, List.reverse_reverse,
    List.takeWhile_append_dropWhile]

end Text

theorem Blanks.append {lead trail : List Char} (hlead : Blanks lead) (htrail : Blanks trail) :
    Blanks (lead ++ trail) :=
  List.forall_mem_append.mpr ⟨hlead, htrail⟩

theorem Blanks.not_mem {cs : List Char} (h : Blanks cs) {c : Char} (hc : Text.isBlank c = false) :
    c ∉ cs :=
  fun hmem => absurd (h c hmem) (Bool.eq_false_iff.mp hc)

/-- A line without its comment. -/
def uncommented (raw : List Char) : List Char :=
  raw.takeWhile (· ≠ '#')

theorem cleanLine_eq (raw : List Char) : cleanLine raw = Text.trim (uncommented raw) :=
  rfl

theorem uncommented_append {front : List Char} (h : '#' ∉ front) (rest : List Char) :
    uncommented (front ++ rest) = front ++ uncommented rest :=
  List.takeWhile_append_of_pos fun _ hc => decide_eq_true fun heq => h (heq ▸ hc)

theorem uncommented_comment {comment : List Char} (h : IsComment comment) :
    uncommented comment = [] := by
  cases comment with
  | nil => rfl
  | cons c rest =>
    cases h
    rfl

/-- The clean text of a line is what it shows, without blanks at its ends. -/
theorem Shows.cleanLine_eq {raw text : List Char} (h : Shows raw text) :
    cleanLine raw = Text.trim text := by
  obtain ⟨lead, trail, comment, hlead, htrail, hcomment, htext, rfl⟩ := h
  have hlead' : '#' ∉ lead := hlead.not_mem (by decide)
  have htrail' : '#' ∉ trail := htrail.not_mem (by decide)
  rw [Mips.cleanLine_eq, uncommented_append hlead', uncommented_append htext,
    uncommented_append htrail', uncommented_comment hcomment, List.append_nil,
    Text.trim_append_of_blanks hlead, Text.trim_append_blanks htrail]

/-- A line shows what stands in front of its comment. -/
theorem shows_uncommented (raw : List Char) : Shows raw (uncommented raw) := by
  have hcomment : IsComment (raw.dropWhile (· ≠ '#')) := by
    cases hrest : raw.dropWhile (· ≠ '#') with
    | nil => trivial
    | cons c rest =>
      have hhead := List.head?_dropWhile_not (· ≠ '#') raw
      rw [hrest, List.head?_cons] at hhead
      have heq : c = '#' := by simpa using hhead
      exact heq
  have hnone : '#' ∉ uncommented raw := fun hmem => by
    simpa using List.mem_takeWhile_imp hmem
  exact ⟨[], [], _, .nil, .nil, hcomment, hnone, List.takeWhile_append_dropWhile.symm⟩

/-- A line can stay as it is. -/
theorem Relayout.refl (lines : List (List Char)) : Relayout lines lines := by
  induction lines with
  | nil => exact .nil
  | cons raw lines ih => exact .line (shows_uncommented raw) (shows_uncommented raw) ih

/-! ## Clean lines -/

/-- The clean lines among `lines`, of which the first has number `n`. -/
def cleanLinesFrom (n : Nat) (lines : List (List Char)) : List (Nat × List Char) :=
  ((lines.map cleanLine).zipIdx n).filterMap fun (text, number) =>
    if text = [] then none else some (number, text)

theorem cleanLines_eq (source : String) :
    cleanLines source.toList = cleanLinesFrom 1 (linesOf source) := by
  rw [cleanLines, Text.lines_eq_splitOn, cleanLinesFrom, linesOf]

theorem cleanLinesFrom_cons (n : Nat) (raw : List Char) (lines : List (List Char)) :
    cleanLinesFrom n (raw :: lines) =
      if cleanLine raw = [] then cleanLinesFrom (n + 1) lines
      else (n, cleanLine raw) :: cleanLinesFrom (n + 1) lines := by
  simp only [cleanLinesFrom, List.map_cons, List.zipIdx_cons, List.filterMap_cons]
  split <;> simp_all

theorem cleanLinesFrom_cons_of_nil {raw : List Char} (h : cleanLine raw = []) (n : Nat)
    (lines : List (List Char)) :
    cleanLinesFrom n (raw :: lines) = cleanLinesFrom (n + 1) lines := by
  rw [cleanLinesFrom_cons, if_pos h]

theorem Relayout.append {before before' after after' : List (List Char)}
    (hbefore : Relayout before before') (hafter : Relayout after after') :
    Relayout (before ++ after) (before' ++ after') := by
  induction hbefore with
  | nil => exact hafter
  | add hraw _ ih => exact .add hraw ih
  | drop hraw _ ih => exact .drop hraw ih
  | line hraw hraw' _ ih => exact .line hraw hraw' ih

/-- Behind lines that differ in their layout only, the clean lines are the same but for
their numbers. -/
theorem Relayout.forall₂_cleanLinesFrom {before before' lines lines' : List (List Char)}
    (hbefore : Relayout before before') (h : Relayout lines lines') :
    List.Forall₂ (fun p q => Corresponds (before ++ lines) (before' ++ lines') p.1 q.1 ∧ q.2 = p.2)
      (cleanLinesFrom (before.length + 1) lines) (cleanLinesFrom (before'.length + 1) lines') := by
  -- a line that has been looked at joins those before the rest
  induction h generalizing before before' with
  | nil => exact .nil
  | @add raw lines lines' hraw _ ih =>
    rw [cleanLinesFrom_cons_of_nil hraw.cleanLine_eq]
    simpa using ih (hbefore.append (.add hraw .nil))
  | @drop raw lines lines' hraw _ ih =>
    rw [cleanLinesFrom_cons_of_nil hraw.cleanLine_eq]
    simpa using ih (hbefore.append (.drop hraw .nil))
  | @line raw raw' text lines lines' hraw hraw' hrest ih =>
    have hclean : cleanLine raw' = cleanLine raw := hraw'.cleanLine_eq.trans hraw.cleanLine_eq.symm
    have htail := ih (hbefore.append (.line hraw hraw' .nil))
    simp only [List.append_assoc, List.singleton_append, List.length_append,
      List.length_singleton] at htail
    rw [cleanLinesFrom_cons, cleanLinesFrom_cons, hclean]
    split
    · exact htail
    · exact .cons ⟨.intro hbefore hraw hraw' hrest, rfl⟩ htail

/-! ## Corresponding lines -/

/-- The number of lines that show something. -/
def numberShown (lines : List (List Char)) : Nat :=
  lines.countP (cleanLine · ≠ [])

theorem Relayout.numberShown_eq {lines lines' : List (List Char)} (h : Relayout lines lines') :
    numberShown lines' = numberShown lines := by
  unfold numberShown
  induction h with
  | nil => rfl
  | @add raw _ _ hraw _ ih =>
    have hclean : cleanLine raw = [] := hraw.cleanLine_eq
    rw [List.countP_cons_of_neg (by simp [hclean]), ih]
  | @drop raw _ _ hraw _ ih =>
    have hclean : cleanLine raw = [] := hraw.cleanLine_eq
    rw [List.countP_cons_of_neg (by simp [hclean]), ih]
  | line hraw hraw' _ ih =>
    rw [List.countP_cons, List.countP_cons, hraw.cleanLine_eq, hraw'.cleanLine_eq, ih]

/-- Behind a line that shows something there are more such lines. -/
theorem numberShown_take_lt {lines : List (List Char)} {raw : List Char} {i j : Nat}
    (hraw : lines[i]? = some raw) (hshown : cleanLine raw ≠ []) (hlt : i < j) :
    numberShown (lines.take i) < numberShown (lines.take j) := by
  have hstep : numberShown (lines.take (i + 1)) = numberShown (lines.take i) + 1 := by
    simp [numberShown, List.take_add_one, hraw, hshown]
  have hmono : numberShown (lines.take (i + 1)) ≤ numberShown (lines.take j) :=
    (List.take_sublist_take_left hlt).countP_le
  omega

theorem Corresponds.exists_getElem? {lines lines' : List (List Char)} {n n' : Nat}
    (h : Corresponds lines lines' n n') : ∃ i j raw raw', n = i + 1 ∧ n' = j + 1 ∧
      lines[i]? = some raw ∧ lines'[j]? = some raw' ∧ cleanLine raw' = cleanLine raw ∧
      numberShown (lines'.take j) = numberShown (lines.take i) := by
  cases h with
  | @intro before before' after after' raw raw' text hbefore hraw hraw' _ =>
    refine ⟨before.length, before'.length, raw, raw', rfl, rfl, ?_, ?_, ?_, ?_⟩
    · simp
    · simp
    · rw [hraw.cleanLine_eq, hraw'.cleanLine_eq]
    · rw [List.take_left, List.take_left, hbefore.numberShown_eq]

/-- A line that shows something corresponds to one line only. -/
theorem CorrespondingLines.unique {a b : String} {n n₁ n₂ : Nat} {text : List Char}
    (hclean : IsCleanLine a n text) (h₁ : CorrespondingLines a b n n₁)
    (h₂ : CorrespondingLines a b n n₂) : n₁ = n₂ := by
  obtain ⟨i, raw, hraw, hn, rfl, hshown⟩ := hclean
  obtain ⟨i₁, j₁, raw₁, raw₁', hn₁, rfl, hraw₁, hraw₁', hclean₁, hcount₁⟩ := h₁.exists_getElem?
  obtain ⟨i₂, j₂, raw₂, raw₂', hn₂, rfl, hraw₂, hraw₂', hclean₂, hcount₂⟩ := h₂.exists_getElem?
  cases Nat.succ.inj (hn.symm.trans hn₁)
  cases Nat.succ.inj (hn.symm.trans hn₂)
  cases hraw.symm.trans hraw₁
  cases hraw.symm.trans hraw₂
  -- as many lines show something before either line, so neither stands before the other
  rcases Nat.lt_trichotomy j₁ j₂ with hlt | rfl | hlt
  · have hmore := numberShown_take_lt hraw₁' (hclean₁ ▸ hshown) hlt
    omega
  · rfl
  · have hmore := numberShown_take_lt hraw₂' (hclean₂ ▸ hshown) hlt
    omega

/-! ## Listings -/

/-- The same is said about a line with the same text, and the numbers of both lines are
related. -/
structure Located.Moves {α : Type} (C : Nat → Nat → Prop) (here there : Located α) : Prop where
  number : C here.number there.number
  text : there.text = here.text
  value : there.value = here.value

theorem Located.Moves.withValue {α β : Type} {C : Nat → Nat → Prop} {here there : Located α}
    (h : here.Moves C there) (value : β) : (here.withValue value).Moves C (there.withValue value) :=
  ⟨h.number, h.text, rfl⟩

theorem Listing.alike_readLine {C : Nat → Nat → Prop} {number number' : Nat}
    (h : C number number') (text : List Char) :
    Alike (Located.Moves C) (Located.Moves C) (readLine number text) (readLine number' text) := by
  unfold readLine
  cases Line.parse text with
  | ok line => exact .ok ⟨h, rfl, rfl⟩
  | error error => exact .error ⟨h, rfl, rfl⟩

/-- **Layout does not matter to listings**, but for the numbers of the lines. -/
theorem Relaid.alike_parse {a b : String} (h : Relaid a b) :
    Alike (Located.Moves (CorrespondingLines a b))
      (List.Forall₂ (Located.Moves (CorrespondingLines a b))) (Listing.parse a)
      (Listing.parse b) := by
  unfold Listing.parse
  rw [cleanLines_eq, cleanLines_eq]
  refine .mapM (Relayout.forall₂_cleanLinesFrom .nil h) ?_
  rintro ⟨number, text⟩ ⟨number', _⟩ ⟨hnumber, rfl⟩
  exact Listing.alike_readLine hnumber _

end Mips
