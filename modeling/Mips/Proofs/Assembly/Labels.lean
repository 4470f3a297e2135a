import Mips.Assembly.Program

/-!
# Where labels stand

`Listing.Defines` says which label stands in front of which instruction: the label is
that of some line, and the instructions on the lines before it are counted.  One
pass over a listing finds exactly these labels, at the addresses of their
instructions (`Symbols.getElem?_eq_some_iff`).

The pass comes to its end if no label is defined twice (`Symbols.exists_ofListing_iff`),
and otherwise stops at the first line whose label an earlier line has
(`Symbols.ofListing_eq_error_iff`).
-/
namespace Mips

namespace Listing

/-- A line of the listing defines `name`, and the lines before it hold `slot`
instructions. -/
def Defines (listing : Listing) (name : String) (slot : Nat) : Prop :=
  ∃ (before : Listing) (line : Located Line) (after : Listing),
    listing = before ++ line :: after ∧ line.value.label? = some name ∧
      before.statements.length = slot

/-- The number of instructions on a line. -/
def lineCount (line : Located Line) : Nat :=
  if line.value.statement?.isSome then 1 else 0

theorem length_statements_cons (line : Located Line) (rest : Listing) :
    (statements (line :: rest)).length = lineCount line + (statements rest).length := by
  unfold statements lineCount
  rw [List.filterMap_cons]
  cases line.value.statement? with
  | none => simp
  | some statement => simp [Nat.add_comm]

theorem length_statements_append (before after : Listing) :
    (statements (before ++ after)).length =
      (statements before).length + (statements after).length := by
  unfold statements
  rw [List.filterMap_append, List.length_append]

theorem not_defines_nil (name : String) (slot : Nat) : ¬ Defines [] name slot := by
  rintro ⟨before, line, after, h, -, -⟩
  simp at h

/-- A label is defined by the first line, or by a later one and then behind the
instruction of the first line. -/
theorem defines_cons {line : Located Line} {rest : Listing} {name : String} {slot : Nat} :
    Defines (line :: rest) name slot ↔ (line.value.label? = some name ∧ slot = 0) ∨
      ∃ slot', Defines rest name slot' ∧ slot = lineCount line + slot' := by
  constructor
  · rintro ⟨before, line', after, h, hname, rfl⟩
    cases before with
    | nil =>
      cases h
      exact Or.inl ⟨hname, rfl⟩
    | cons first before =>
      cases h
      exact Or.inr ⟨_, ⟨before, line', after, rfl, hname, rfl⟩, length_statements_cons _ _⟩
  · rintro (⟨hname, rfl⟩ | ⟨_, ⟨before, line', after, rfl, hname, rfl⟩, rfl⟩)
    · exact ⟨[], line, rest, rfl, hname, rfl⟩
    · exact ⟨line :: before, line', after, rfl, hname, length_statements_cons _ _⟩

theorem exists_defines_cons {line : Located Line} {rest : Listing} {name : String}
    {P : Nat → Prop} : (∃ slot, Defines (line :: rest) name slot ∧ P slot) ↔
      (line.value.label? = some name ∧ P 0) ∨
        ∃ slot, Defines rest name slot ∧ P (lineCount line + slot) := by
  simp only [defines_cons]
  constructor
  · rintro ⟨_, ⟨hname, rfl⟩ | ⟨slot, hslot, rfl⟩, hP⟩
    · exact Or.inl ⟨hname, hP⟩
    · exact Or.inr ⟨slot, hslot, hP⟩
  · rintro (⟨hname, hP⟩ | ⟨slot, hslot, hP⟩)
    · exact ⟨0, Or.inl ⟨hname, rfl⟩, hP⟩
    · exact ⟨_, Or.inr ⟨slot, hslot, rfl⟩, hP⟩

/-- The labels that the lines define, in the order of the lines. -/
def labels (listing : Listing) : List String :=
  listing.filterMap fun line => line.value.label?

/-- `line` is the first line of the listing whose label `name` an earlier line defines. -/
def Repeats (listing : Listing) (line : Located Line) (name : String) : Prop :=
  ∃ before after : Listing, listing = before ++ line :: after ∧ before.labels.Nodup ∧
    line.value.label? = some name ∧ name ∈ before.labels

/-- No label stands behind the place past the last instruction. -/
theorem Defines.le {listing : Listing} {name : String} {slot : Nat}
    (h : Defines listing name slot) : slot ≤ listing.statements.length := by
  obtain ⟨before, line, after, rfl, -, rfl⟩ := h
  rw [length_statements_append]
  exact Nat.le_add_right _ _

end Listing

namespace Symbols

theorem getElem?_insert (symbols : Symbols) (name other : String) (address : Address) :
    (symbols.insert name address)[other]? =
      if name = other then some address else symbols[other]? := by
  rw [Std.TreeMap.getElem?_insert]
  simp only [Std.LawfulEqCmp.compare_eq_iff_eq]

/-- What a pass over the rest of a listing finds: what has been found before, and
the labels of the rest. -/
theorem getElem?_define {listing : Listing} {symbols result : Symbols} {count : Nat}
    (h : define symbols count listing = .ok result) {name : String} {address : Address} :
    result[name]? = some address ↔ symbols[name]? = some address ∨
      ∃ slot, listing.Defines name slot ∧ address = textAddress (count + slot) := by
  -- every line hands a table and a count of its own to the rest, so both are general
  induction listing generalizing symbols count with
  | nil =>
    cases h
    simp [Listing.not_defines_nil]
  | cons line rest ih =>
    have hcount : (if line.value.statement?.isSome then count + 1 else count) =
        count + Listing.lineCount line := by
      unfold Listing.lineCount
      split <;> rfl
    simp only [define, hcount] at h
    simp only [Listing.exists_defines_cons, ← Nat.add_assoc, Nat.add_zero]
    cases hlabel : line.value.label? with
    | none =>
      simp only [hlabel] at h
      simp [ih h]
    | some label =>
      simp only [hlabel] at h
      split at h
      · cases h
      · next hnew =>
        rw [ih h, getElem?_insert]
        by_cases hname : label = name
        · subst hname
          rw [Std.TreeMap.contains_eq_isSome_getElem?] at hnew
          have hnone : symbols[label]? = none := Option.not_isSome_iff_eq_none.mp hnew
          have hsome : some (textAddress count) = some address ↔ address = textAddress count :=
            ⟨fun h => (Option.some.inj h).symm, fun h => congrArg some h.symm⟩
          simp only [if_true, hnone, reduceCtorEq, hsome, true_and, false_or]
        · simp [hname]

/-- **The addresses of labels.**  The labels of a listing are those that its lines
define, each at the address of the instruction that it stands in front of. -/
theorem getElem?_eq_some_iff {listing : Listing} {symbols : Symbols}
    (h : ofListing listing = .ok symbols) {name : String} {address : Address} :
    symbols[name]? = some address ↔
      ∃ slot, listing.Defines name slot ∧ address = textAddress slot := by
  rw [getElem?_define h]
  simp

/-! ## Labels that are defined twice -/

end Symbols

namespace Listing

variable {seen : List String} {first line : Located Line} {rest : Listing} {label name : String}

/-- The same behind lines with the labels `seen`. -/
def RepeatsBehind (seen : List String) (listing : Listing) (line : Located Line)
    (name : String) : Prop :=
  ∃ before after : Listing, listing = before ++ line :: after ∧ (seen ++ before.labels).Nodup ∧
    line.value.label? = some name ∧ name ∈ seen ++ before.labels

theorem labels_cons_none (h : first.value.label? = none) : labels (first :: rest) = labels rest :=
  List.filterMap_cons_none h

theorem labels_cons_some (h : first.value.label? = some label) :
    labels (first :: rest) = label :: labels rest :=
  List.filterMap_cons_some h

theorem repeatsBehind_cons_none (h : first.value.label? = none) :
    RepeatsBehind seen (first :: rest) line name ↔ RepeatsBehind seen rest line name := by
  constructor
  · rintro ⟨before, after, hsplit, hnodup, hlabel, hname⟩
    cases before with
    | nil =>
      cases hsplit
      rw [h] at hlabel
      cases hlabel
    | cons _ before =>
      cases hsplit
      rw [labels_cons_none h] at hnodup hname
      exact ⟨before, after, rfl, hnodup, hlabel, hname⟩
  · rintro ⟨before, after, rfl, hnodup, hlabel, hname⟩
    refine ⟨first :: before, after, rfl, ?_, hlabel, ?_⟩
    · rwa [labels_cons_none h]
    · rwa [labels_cons_none h]

/-- A label that is new joins those that have been found. -/
theorem repeatsBehind_cons_some (h : first.value.label? = some label) (hnew : label ∉ seen) :
    RepeatsBehind seen (first :: rest) line name ↔
      RepeatsBehind (seen ++ [label]) rest line name := by
  have happ : ∀ before : Listing, seen ++ labels (first :: before) =
      seen ++ [label] ++ labels before := by
    intro before
    rw [labels_cons_some h, List.append_assoc, List.singleton_append]
  constructor
  · rintro ⟨before, after, hsplit, hnodup, hlabel, hname⟩
    cases before with
    | nil =>
      cases hsplit
      cases h.symm.trans hlabel
      exact absurd (by simpa [labels] using hname) hnew
    | cons _ before =>
      cases hsplit
      rw [happ] at hnodup hname
      exact ⟨before, after, rfl, hnodup, hlabel, hname⟩
  · rintro ⟨before, after, rfl, hnodup, hlabel, hname⟩
    refine ⟨first :: before, after, rfl, ?_, hlabel, ?_⟩
    · rwa [happ]
    · rwa [happ]

/-- A label that is not new is the first repetition. -/
theorem repeatsBehind_cons_mem (h : first.value.label? = some label) (hmem : label ∈ seen)
    (hnodup : seen.Nodup) :
    RepeatsBehind seen (first :: rest) line name ↔ line = first ∧ name = label := by
  constructor
  · rintro ⟨before, after, hsplit, hnodup', hlabel, -⟩
    cases before with
    | nil =>
      cases hsplit
      exact ⟨rfl, Option.some.inj (hlabel.symm.trans h)⟩
    | cons _ before =>
      cases hsplit
      rw [labels_cons_some h, List.nodup_append] at hnodup'
      exact absurd rfl (hnodup'.2.2 label hmem label List.mem_cons_self)
  · rintro ⟨rfl, rfl⟩
    exact ⟨[], rest, rfl, by simpa [labels] using hnodup, h, List.mem_append_left _ hmem⟩

end Listing

namespace Symbols

variable {listing : Listing} {symbols : Symbols} {seen : List String} {count : Nat}
  {label : String}

theorem contains_insert_iff (hseen : ∀ name, symbols.contains name ↔ name ∈ seen)
    (address : Address) (name : String) :
    (symbols.insert label address).contains name ↔ name ∈ seen ++ [label] := by
  rw [Std.TreeMap.contains_insert, Bool.or_eq_true, hseen, List.mem_append, List.mem_singleton,
    beq_iff_eq, Std.LawfulEqCmp.compare_eq_iff_eq, or_comm, eq_comm]

theorem nodup_append_singleton (hnodup : seen.Nodup) (hnew : label ∉ seen) :
    (seen ++ [label]).Nodup := by
  rw [List.nodup_append]
  refine ⟨hnodup, List.pairwise_singleton _ label, ?_⟩
  rintro name hname _ hlabel rfl
  exact hnew (List.mem_singleton.mp hlabel ▸ hname)

/-- The pass over the rest of a listing comes to its end if no label of the rest is there
twice or has been found before. -/
theorem exists_define_iff (hseen : ∀ name, symbols.contains name ↔ name ∈ seen)
    (hnodup : seen.Nodup) :
    (∃ result, define symbols count listing = .ok result) ↔ (seen ++ listing.labels).Nodup := by
  -- the labels of every line are among those that the rest is checked against
  induction listing generalizing symbols seen count with
  | nil => simp [define, Listing.labels, hnodup]
  | cons line rest ih =>
    cases hlabel : line.value.label? with
    | none =>
      simp only [define, hlabel, Listing.labels_cons_none hlabel]
      exact ih hseen hnodup
    | some label =>
      simp only [define, hlabel, Listing.labels_cons_some hlabel]
      split
      · next hcontains =>
        have hmem := (hseen label).mp hcontains
        refine iff_of_false nofun fun h => ?_
        exact absurd rfl ((List.nodup_append.mp h).2.2 label hmem label List.mem_cons_self)
      · next hcontains =>
        have hnew : label ∉ seen := fun hmem => hcontains ((hseen label).mpr hmem)
        rw [ih (contains_insert_iff hseen _) (nodup_append_singleton hnodup hnew),
          List.append_assoc, List.singleton_append]

/-- The pass over the rest of a listing stops at the first label that has been found
before. -/
theorem define_eq_error_iff (hseen : ∀ name, symbols.contains name ↔ name ∈ seen)
    (hnodup : seen.Nodup) {e : AssemblyError} : define symbols count listing = .error e ↔
      ∃ line name, listing.RepeatsBehind seen line name ∧
        e = line.withValue (.duplicateLabel name) := by
  induction listing generalizing symbols seen count with
  | nil => simp [define, Listing.RepeatsBehind]
  | cons line rest ih =>
    cases hlabel : line.value.label? with
    | none =>
      simp only [define, hlabel, Listing.repeatsBehind_cons_none hlabel]
      exact ih hseen hnodup
    | some label =>
      simp only [define, hlabel]
      split
      · next hcontains =>
        have hmem := (hseen label).mp hcontains
        simp only [Listing.repeatsBehind_cons_mem hlabel hmem hnodup, Except.error.injEq]
        constructor
        · rintro rfl
          exact ⟨line, label, ⟨rfl, rfl⟩, rfl⟩
        · rintro ⟨_, _, ⟨rfl, rfl⟩, rfl⟩
          rfl
      · next hcontains =>
        have hnew : label ∉ seen := fun hmem => hcontains ((hseen label).mpr hmem)
        simp only [Listing.repeatsBehind_cons_some hlabel hnew]
        exact ih (contains_insert_iff hseen _) (nodup_append_singleton hnodup hnew)

theorem contains_empty_iff (name : String) : (∅ : Symbols).contains name ↔ name ∈ [] := by
  simp

/-- **A listing has a table of labels exactly if no label is defined twice.** -/
theorem exists_ofListing_iff :
    (∃ symbols, ofListing listing = .ok symbols) ↔ listing.labels.Nodup :=
  exists_define_iff contains_empty_iff List.nodup_nil

/-- **A label that is defined twice is reported at its second line**, and the first such
line is the one that is reported. -/
theorem ofListing_eq_error_iff {e : AssemblyError} : ofListing listing = .error e ↔
    ∃ line name, listing.Repeats line name ∧ e = line.withValue (.duplicateLabel name) :=
  define_eq_error_iff contains_empty_iff List.nodup_nil

end Symbols
end Mips
