import Mips.Proofs.Assembly.Layout
import Mips.Proofs.Assembly.Spread
import Mips.Proofs.Assembly.Verdict

/-!
# Source texts with the same words

A source text can be laid out in another way, a label can move onto a line of its own or
back, a label that nothing else uses can be added, and all labels can have other names
(`Rewrites`).  The first of these changes nothing but line numbers, and the others keep the
statements in their slots and the labels in front of the same statements.  So the words
stay the same (`assemble_of_rewrites`).
-/
namespace Mips

/-- A line `label: instruction` of the first text is two lines in the second.  There is no
other label on the line. -/
def SplitsLabel (a b : String) : Prop :=
  ∃ before label instruction after, ':' ∉ label ∧ '#' ∉ label ∧ ':' ∉ uncommented instruction ∧
    linesOf a = before ++ (label ++ ':' :: instruction) :: after ∧
    linesOf b = before ++ (label ++ [':']) :: instruction :: after

/-- The second text has one more line, which is the label `name` and nothing else. -/
def InsertsLabel (name : String) (a b : String) : Prop :=
  ∃ before raw after, Line.parse (cleanLine raw) = .ok (.label name) ∧
    linesOf a = before ++ after ∧ linesOf b = before ++ raw :: after

/-- The two listings say the same line by line, with names that `ρ` changes. -/
def Listing.Renames (ρ : String → String) (listing listing' : Listing) : Prop :=
  listing'.map Located.value = listing.map fun line => line.value.renamed ρ

/-- The ways to write a source text differently. -/
inductive Rewrites (a b : String) : Prop
  /-- Comments, blank lines and the blanks around a line can change. -/
  | layout (h : Relaid a b)
  /-- A label can move onto a line of its own. -/
  | split (h : SplitsLabel a b)
  /-- A label on a line of its own can move in front of the next line. -/
  | join (h : SplitsLabel b a)
  /-- A label that is not defined can be put anywhere. -/
  | insert {name : String} (h : InsertsLabel name a b)
      (hnew : ∀ listing, Listing.parse a = .ok listing → name ∉ listing.labels)
  /-- Different labels can have any other names that are different. -/
  | rename {ρ : String → String} {listing listing' : Listing}
      (ha : Listing.parse a = .ok listing) (hb : Listing.parse b = .ok listing')
      (h : listing.Renames ρ listing') (hρ : Set.InjOn ρ {name | name ∈ listing.labels})

/-! ## One rewriting at a time -/

section
variable {a b : String} {words : List Word} {items : List Item}

theorem SplitsLabel.say_iff (h : SplitsLabel a b) :
    Say (linesOf a) items ↔ Say (linesOf b) items := by
  obtain ⟨before, label, instruction, after, hlabel, hcomment, hinstruction, ha, hb⟩ := h
  rw [ha, hb, say_append, say_append]
  simp only [say_label_iff hlabel hcomment hinstruction]

theorem exists_say_of_assemble (h : assemble a = .ok words) : ∃ items, Say (linesOf a) items := by
  obtain ⟨listing, -, ha, -, -⟩ := assemble_eq_ok_iff.mp h
  exact ⟨listing.items, Listing.exists_parse_iff_say.mp ⟨listing, ha, rfl⟩⟩

/-- Source texts whose lines say what carries each other along have the same words. -/
theorem assemble_of_say {ρ : String → String} {items' : List Item} (h : assemble a = .ok words)
    (ha : Say (linesOf a) items) (hb : Say (linesOf b) items')
    (hcarries : (Item.labels items).Nodup → Item.Carries ρ items items') :
    assemble b = .ok words := by
  obtain ⟨listing, hlisting, rfl⟩ := Listing.exists_parse_iff_say.mpr ha
  obtain ⟨listing', hlisting', rfl⟩ := Listing.exists_parse_iff_say.mpr hb
  exact assemble_of_carries ρ h hlisting hlisting' hcarries

theorem assemble_of_insertsLabel {name : String} (hinserts : InsertsLabel name a b)
    (hnew : ∀ listing, Listing.parse a = .ok listing → name ∉ listing.labels)
    (h : assemble a = .ok words) : assemble b = .ok words := by
  obtain ⟨before, raw, after, hraw, hlines, hlines'⟩ := hinserts
  obtain ⟨items, ha⟩ := exists_say_of_assemble h
  have hname : name ∉ Item.labels items := by
    obtain ⟨listing, hlisting, rfl⟩ := Listing.exists_parse_iff_say.mpr ha
    exact Listing.labels_eq listing ▸ hnew listing hlisting
  rw [hlines] at ha
  obtain ⟨front, back, hfront, hback, rfl⟩ := say_append.mp ha
  have hb : Say (linesOf b) (front ++ .label name :: back) := by
    rw [hlines']
    exact say_append.mpr ⟨front, _, hfront, ⟨_, back, says_of_parse hraw, hback, rfl⟩, rfl⟩
  exact assemble_of_say h (hlines ▸ ha) hb fun hnodup => Item.carries_insert hnodup hname

theorem Listing.Renames.items_eq {ρ : String → String} {listing listing' : Listing}
    (h : listing.Renames ρ listing') : listing'.items = listing.items.map (Item.renamed ρ) := by
  have hitems : listing'.items = (listing'.map Located.value).flatMap Line.items := by
    rw [List.flatMap_map, Listing.items]
  rw [hitems, h, List.flatMap_map, Listing.items, List.map_flatMap]
  simp only [Line.items_renamed]

end

/-- **The words do not depend on the layout or on the names of labels.**  A source text
that is written differently has the same words.  If it cannot be assembled, another layout
has the same problem with the same text, and the number of the line that corresponds. -/
theorem assemble_of_rewrites (a b : String) :
    (∀ words, assemble a = .ok words → Rewrites a b → assemble b = .ok words) ∧
    ∀ e, assemble a = .error e → Relaid a b → ∃ e', assemble b = .error e' ∧
      e'.value = e.value ∧ e'.text = e.text ∧
        ∀ number, CorrespondingLines a b e.number number ↔ number = e'.number := by
  constructor
  · intro words h hrewrites
    cases hrewrites with
    | layout hrelaid =>
      obtain ⟨_, hb, rfl⟩ := hrelaid.alike_assemble.exists_ok h
      exact hb
    | split hsplits =>
      obtain ⟨items, hsay⟩ := exists_say_of_assemble h
      exact assemble_of_say h hsay (hsplits.say_iff.mp hsay) Item.carries_refl
    | join hsplits =>
      obtain ⟨items, hsay⟩ := exists_say_of_assemble h
      exact assemble_of_say h hsay (hsplits.say_iff.mpr hsay) Item.carries_refl
    | insert hinserts hnew => exact assemble_of_insertsLabel hinserts hnew h
    | @rename ρ listing listing' ha hb hrenames hρ =>
      refine assemble_of_carries ρ h ha hb fun hnodup => ?_
      rw [hrenames.items_eq]
      exact Item.carries_renamed hnodup (Listing.labels_eq listing ▸ hρ)
  · intro e h hrelaid
    obtain ⟨e', he', hnumber, htext, hvalue⟩ := hrelaid.alike_assemble.exists_error h
    have hclean : e.IsLineOf a := (assemble_eq_error_iff.mp h).isLineOf
    refine ⟨e', he', hvalue, htext, fun number => ⟨fun h => h.unique hclean hnumber, ?_⟩⟩
    rintro rfl
    exact hnumber

theorem assemble_of_rewrites_of_a_loop :
    assemble "x: j x # loop\nbeq $0, $0, x" = .ok [0x08100000, 0x1000FFFE] ∧
      assemble "# title\n\tx: j x\r\n\r\nbeq $0, $0, x" = .ok [0x08100000, 0x1000FFFE] ∧
      assemble "x:\n j x # loop\nbeq $0, $0, x" = .ok [0x08100000, 0x1000FFFE] ∧
      assemble "x: j x # loop\nadd: # a name\nbeq $0, $0, x" = .ok [0x08100000, 0x1000FFFE] ∧
      assemble "sub: j sub\nbeq $0, $0, sub" = .ok [0x08100000, 0x1000FFFE] ∧
      assemble "# title\n\r\n j y\r" = .error ⟨3, "j y", .unresolved (.undefinedLabel "y")⟩ := by
  have hloop : assemble "x: j x # loop\nbeq $0, $0, x" = .ok [0x08100000, 0x1000FFFE] := by
    decide +kernel
  let loop : Listing :=
    [⟨1, "x: j x", .statement (some "x") ⟨"j", [.label "x"]⟩⟩,
      ⟨2, "beq $0, $0, x", .statement none
        ⟨"beq", [.register (.numbered 0), .register (.numbered 0), .label "x"]⟩⟩]
  have hparse : Listing.parse "x: j x # loop\nbeq $0, $0, x" = .ok loop := by decide +kernel
  have hlabels : loop.labels = ["x"] := rfl
  have hlines : linesOf "x: j x # loop\nbeq $0, $0, x" =
      ["x: j x # loop".toList, "beq $0, $0, x".toList] := by decide
  have hempty : Shows ['\r'] [] :=
    ⟨['\r'], [], [], by decide, by decide, trivial, by decide, rfl⟩
  have htitle : Shows "# title".toList [] :=
    ⟨[], [], "# title".toList, by decide, by decide, rfl, by decide, rfl⟩
  refine ⟨hloop, ?_, ?_, ?_, ?_, ?_⟩
  · have hjump : Shows "x: j x # loop".toList "x: j x".toList :=
      ⟨[], [' '], "# loop".toList, by decide, by decide, rfl, by decide, by decide⟩
    have hjump' : Shows "\tx: j x\r".toList "x: j x".toList :=
      ⟨['\t'], ['\r'], [], by decide, by decide, trivial, by decide, by decide⟩
    have hlines' : linesOf "# title\n\tx: j x\r\n\r\nbeq $0, $0, x" =
        ["# title".toList, "\tx: j x\r".toList, ['\r'], "beq $0, $0, x".toList] := by decide
    refine (assemble_of_rewrites _ _).1 _ hloop (.layout ?_)
    rw [Relaid, hlines, hlines']
    exact .add htitle (.line hjump hjump' (.add hempty (.refl _)))
  · have hsplits : SplitsLabel "x: j x # loop\nbeq $0, $0, x" "x:\n j x # loop\nbeq $0, $0, x" :=
      ⟨[], ['x'], " j x # loop".toList, ["beq $0, $0, x".toList], by decide⟩
    exact (assemble_of_rewrites _ _).1 _ hloop (.split hsplits)
  · have hinserts : InsertsLabel "add" "x: j x # loop\nbeq $0, $0, x"
        "x: j x # loop\nadd: # a name\nbeq $0, $0, x" :=
      ⟨["x: j x # loop".toList], "add: # a name".toList, ["beq $0, $0, x".toList],
        by decide +kernel, by decide, by decide⟩
    refine (assemble_of_rewrites _ _).1 _ hloop (.insert hinserts fun listing hlisting => ?_)
    cases hparse.symm.trans hlisting
    rw [hlabels]
    decide
  · let loop' : Listing :=
      [⟨1, "sub: j sub", .statement (some "sub") ⟨"j", [.label "sub"]⟩⟩,
        ⟨2, "beq $0, $0, sub", .statement none
          ⟨"beq", [.register (.numbered 0), .register (.numbered 0), .label "sub"]⟩⟩]
    have hparse' : Listing.parse "sub: j sub\nbeq $0, $0, sub" = .ok loop' := by decide +kernel
    have hrenames : loop.Renames (fun name => if name = "x" then "sub" else name) loop' := rfl
    refine (assemble_of_rewrites _ _).1 _ hloop (.rename hparse hparse' hrenames ?_)
    rw [hlabels]
    intro name hname other hother _
    rw [List.mem_singleton.mp hname, List.mem_singleton.mp hother]
  · have hlost : assemble "j y # lost" = .error ⟨1, "j y", .unresolved (.undefinedLabel "y")⟩ := by
      decide +kernel
    have hjump : Shows "j y # lost".toList "j y".toList :=
      ⟨[], [' '], "# lost".toList, by decide, by decide, rfl, by decide, by decide⟩
    have hjump' : Shows " j y\r".toList "j y".toList :=
      ⟨[' '], ['\r'], [], by decide, by decide, trivial, by decide, by decide⟩
    have hbefore : Relayout [] ["# title".toList, ['\r']] := .add htitle (.add hempty .nil)
    have hrelaid : Relaid "j y # lost" "# title\n\r\n j y\r" :=
      hbefore.append (.line hjump hjump' .nil)
    have hthree : CorrespondingLines "j y # lost" "# title\n\r\n j y\r" 1 3 :=
      .intro hbefore hjump hjump' .nil
    obtain ⟨⟨number, text, value⟩, herror, hvalue, htext, hnumber⟩ :=
      (assemble_of_rewrites _ _).2 _ hlost hrelaid
    cases (hnumber 3).mp hthree
    cases htext
    cases hvalue
    exact herror

end Mips
