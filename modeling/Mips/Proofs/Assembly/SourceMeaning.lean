import Mips.Proofs.Assembly.Spread

/-!
# The meaning of a source text

`LineItems` says what is written on a line, and does so without the reader: a line shows
nothing, or it shows a rendering of a label, of a statement or of both.  Every source text
that is read has one division into such items, line by line (`SourceItems.unique`), and the
items of its listing are those (`Listing.exists_parse_iff_sourceItems`).

So the meaning of assembled words (`assemble_meaning`) is a statement about source texts.
There is one word for every line with a statement, it decodes to what the statement denotes
and to nothing else, and the labels are where they stand.
-/
namespace Mips

/-- What is written on a line. -/
inductive LineItems : List Char → List Item → Prop
  | nothing {raw : List Char} (hraw : Shows raw []) : LineItems raw []
  | line {raw text : List Char} {line : Line} (hraw : Shows raw text) (htext : line.Renders text) :
      LineItems raw line.items

/-- What is written on the lines of a source text, line by line. -/
def SourceItems (source : String) (lines : List (List Item)) : Prop :=
  List.Forall₂ LineItems (source.toList.splitOn '\n') lines

variable {raw : List Char} {items : List Item} {lines lines' : List (List Item)} {source : String}

/-! ## Lines -/

/-- A line shows its clean text. -/
theorem shows_cleanLine (raw : List Char) : Shows raw (cleanLine raw) := by
  obtain ⟨lead, trail, comment, hlead, htrail, hcomment, hnone, hraw⟩ := shows_uncommented raw
  obtain ⟨front, back, hfront, hback, htrim⟩ := Text.exists_trim (uncommented raw)
  rw [← cleanLine_eq] at htrim
  refine ⟨lead ++ front, back ++ trail, comment, hlead.append hfront, hback.append htrail,
    hcomment, ?_, ?_⟩
  · intro hmem
    rw [htrim] at hnone
    exact hnone (List.mem_append_right _ (List.mem_append_left _ hmem))
  · calc raw = lead ++ (uncommented raw ++ (trail ++ comment)) := hraw
      _ = lead ++ (front ++ (cleanLine raw ++ back) ++ (trail ++ comment)) := by rw [← htrim]
      _ = lead ++ front ++ (cleanLine raw ++ (back ++ trail ++ comment)) := by simp

/-- What is written on a line is what the reader takes it to say. -/
theorem lineItems_iff : LineItems raw items ↔ Says raw items := by
  constructor
  · intro h
    cases h with
    | nothing hraw =>
      have hclean : cleanLine raw = [] := hraw.cleanLine_eq
      rw [Says, if_pos hclean]
    | line hraw htext =>
      refine says_of_parse (Line.parse_trim_eq_ok_iff.mpr ?_)
      have hclean : cleanLine raw = _ := hraw.cleanLine_eq.trans htext.trim_eq
      rw [cleanLine] at hclean
      rwa [hclean]
  · intro h
    have hshows := shows_cleanLine raw
    unfold Says at h
    split at h
    · next hclean =>
      cases h
      exact .nothing (hclean ▸ hshows)
    · obtain ⟨line, hline, rfl⟩ := h
      exact .line hshows (Line.parse_trim_eq_ok_iff.mp hline)

theorem LineItems.unique {items' : List Item} (h : LineItems raw items)
    (h' : LineItems raw items') : items = items' := by
  rw [lineItems_iff, Says] at h h'
  split at h
  · next hclean =>
    rw [if_pos hclean] at h'
    rw [h, h']
  · next hclean =>
    rw [if_neg hclean] at h'
    obtain ⟨line, hline, rfl⟩ := h
    obtain ⟨line', hline', rfl⟩ := h'
    cases hline.symm.trans hline'
    rfl

/-- No line has two statements. -/
theorem LineItems.length_statements (h : LineItems raw items) :
    (Item.statements items).length = if Item.statements items ≠ [] then 1 else 0 := by
  cases h with
  | nothing => rfl
  | @line _ line =>
    cases line with
    | label name => rfl
    | statement label? content => cases label? <;> rfl

/-! ## Source texts -/

/-- A source text has one division into items. -/
theorem SourceItems.unique (h : SourceItems source lines) (h' : SourceItems source lines') :
    lines = lines' :=
  List.right_unique_forall₂' (R := LineItems) (fun _ _ _ => LineItems.unique) h h'

theorem say_iff_exists_forall₂ {raws : List (List Char)} : Say raws items ↔
    ∃ lines, List.Forall₂ LineItems raws lines ∧ lines.flatten = items := by
  induction raws generalizing items with
  | nil => simp [Say, List.forall₂_nil_left_iff, eq_comm]
  | cons raw raws ih =>
    simp only [Say, ih, ← lineItems_iff, List.forall₂_cons_left_iff]
    constructor
    · rintro ⟨first, _, hfirst, ⟨lines, hlines, rfl⟩, rfl⟩
      exact ⟨_, ⟨first, lines, hfirst, hlines, rfl⟩, rfl⟩
    · rintro ⟨_, ⟨first, lines, hfirst, hlines, rfl⟩, rfl⟩
      exact ⟨first, _, hfirst, ⟨lines, hlines, rfl⟩, rfl⟩

/-- **The items of a listing are those that are written in its source text.** -/
theorem Listing.exists_parse_iff_sourceItems :
    (∃ listing, parse source = .ok listing ∧ listing.items = items) ↔
      ∃ lines, SourceItems source lines ∧ lines.flatten = items := by
  rw [exists_parse_iff_say]
  exact say_iff_exists_forall₂

/-- There are as many statements as lines with a statement. -/
theorem SourceItems.length_statements (h : SourceItems source lines) :
    (Item.statements lines.flatten).length =
      lines.countP fun items => Item.statements items ≠ [] := by
  unfold SourceItems at h
  generalize source.toList.splitOn '\n' = raws at h
  induction h with
  | nil => rfl
  | cons hfirst _ ih =>
    rw [List.flatten_cons, Item.statements_append, List.length_append, ih,
      hfirst.length_statements, List.countP_cons, Nat.add_comm]
    simp only [decide_eq_true_eq]

/-! ## Assembled words -/

/-- **Assembling preserves meaning.**  A source text that can be assembled has one word for
every line with a statement.  If its addresses fit a word, the word in a slot decodes to the
one operation that the statement in the slot denotes, and the symbols are exactly the labels
of the text at the addresses of their slots. -/
theorem assemble_meaning {words : List Word} (h : assemble source = .ok words) :
    ∃ (lines : List (List Item)) (program : Program),
      (∀ lines', SourceItems source lines' ↔ lines' = lines) ∧
      Program.ofSource source = .ok program ∧ program.words = words ∧
      words.length = lines.countP (fun items => Item.statements items ≠ []) ∧
      words.length = (Item.statements lines.flatten).length ∧
      (words.length < 2 ^ 30 - 2 ^ 20 →
        (∀ (i : Nat) (statement : Statement),
          (Item.statements lines.flatten)[i]? = some statement →
            ∃ word op, words[i]? = some word ∧ decode word = .ok op ∧
              ∀ op', statement.Denotes (Item.Places lines.flatten) i op' ↔ op' = op) ∧
        ∀ (name : String) (address : Address), program.symbols[name]? = some address ↔
          ∃ k, Item.Places lines.flatten name k ∧ address.toNat = 0x400000 + 4 * k) := by
  obtain ⟨listing, program, hparse, hprogram, rfl⟩ := assemble_eq_ok_iff.mp h
  obtain ⟨lines, hlines, hitems⟩ :=
    Listing.exists_parse_iff_sourceItems.mp ⟨listing, hparse, rfl⟩
  have hlength : program.words.length = (Item.statements lines.flatten).length := by
    rw [Program.words_length, Program.length_operations hprogram, hitems,
      ← Listing.map_value_statements, List.length_map]
  have hplaces : listing.Defines = Item.Places lines.flatten := by
    funext name slot
    rw [hitems]
    exact propext Listing.defines_iff
  refine ⟨lines, program, fun lines' => ⟨fun h' => h'.unique hlines, ?_⟩,
    Program.ofSource_eq_ok_iff.mpr ⟨listing, hparse, hprogram⟩, rfl,
    hlength.trans hlines.length_statements, hlength, fun hsize => ⟨?_, ?_⟩⟩
  · rintro rfl
    exact hlines
  · intro i statement hstatement
    rw [hitems, ← Listing.map_value_statements, List.getElem?_map] at hstatement
    obtain ⟨line, hline, rfl⟩ := Option.map_eq_some_iff.mp hstatement
    rw [Program.words_length, Program.length_operations hprogram] at hsize
    obtain ⟨op, hop, hdenotes, hfits⟩ :=
      Program.denotes_of_ofListing hsize hparse hprogram hline
    refine ⟨_, op, Program.getElem?_words hop, decode_encode hfits, fun op' => ?_⟩
    rw [← hplaces]
    constructor
    · intro hdenotes'
      exact hdenotes'.unique (Program.defines_unique hsize hprogram) hdenotes
    · rintro rfl
      exact hdenotes
  · intro name address
    rw [Program.words_length, Program.length_operations hprogram] at hsize
    rw [Program.getElem?_symbols hprogram, ← hplaces]
    refine exists_congr fun k => and_congr_right fun hk => ?_
    have haddress := toNat_textAddress (Nat.lt_of_le_of_lt hk.le hsize)
    rw [← UInt32.toNat_inj, haddress]

theorem assemble_meaning_countdown :
    ∃ (source : String) (down back : Statement) (program : Program),
      source = "loop: addi $t0, $t0, -0x1 # down\n bne $8, $zero, loop" ∧
      down = ⟨"addi", [.register (.named "t0"), .register (.named "t0"), .number "-0x1"]⟩ ∧
      back = ⟨"bne", [.register (.numbered 8), .register (.named "zero"), .label "loop"]⟩ ∧
      SourceItems source [[.label "loop", .statement down], [.statement back]] ∧
      assemble source = .ok [0x2108FFFF, 0x1500FFFE] ∧
      (∀ op, back.Denotes (Item.Places [.label "loop", .statement down, .statement back]) 1 op ↔
        op = .bne 8 0 (-2)) ∧
      Program.ofSource source = .ok program ∧ program.symbols["loop"]? = some 0x400000 := by
  have h : assemble "loop: addi $t0, $t0, -0x1 # down\n bne $8, $zero, loop" =
      .ok [0x2108FFFF, 0x1500FFFE] := by decide +kernel
  obtain ⟨lines, program, hlines, hprogram, -, -, -, hmeaning⟩ := assemble_meaning h
  obtain ⟨hwords, hsymbols⟩ := hmeaning (by decide)
  have hitems : SourceItems "loop: addi $t0, $t0, -0x1 # down\n bne $8, $zero, loop"
      [[.label "loop", .statement
        ⟨"addi", [.register (.named "t0"), .register (.named "t0"), .number "-0x1"]⟩],
      [.statement
        ⟨"bne", [.register (.numbered 8), .register (.named "zero"), .label "loop"]⟩]] := by
    have hsplit : "loop: addi $t0, $t0, -0x1 # down\n bne $8, $zero, loop".toList.splitOn '\n' =
        ["loop: addi $t0, $t0, -0x1 # down".toList, " bne $8, $zero, loop".toList] := by
      decide +kernel
    have hdown : Line.parse (cleanLine "loop: addi $t0, $t0, -0x1 # down".toList) =
        .ok (.statement (some "loop")
          ⟨"addi", [.register (.named "t0"), .register (.named "t0"), .number "-0x1"]⟩) := by
      decide +kernel
    have hback : Line.parse (cleanLine " bne $8, $zero, loop".toList) =
        .ok (.statement none
          ⟨"bne", [.register (.numbered 8), .register (.named "zero"), .label "loop"]⟩) := by
      decide +kernel
    unfold SourceItems
    rw [hsplit]
    exact .cons (lineItems_iff.mpr (says_of_parse hdown))
      (.cons (lineItems_iff.mpr (says_of_parse hback)) .nil)
  cases (hlines _).mp hitems
  obtain ⟨word, op, hword, hop, hdenotes⟩ := hwords 1 _ rfl
  cases hword
  have hback : decode 0x1500FFFE = .ok (.bne 8 0 (-2)) := by decide +kernel
  cases hop.symm.trans hback
  exact ⟨_, _, _, program, rfl, rfl, rfl, hitems, h, hdenotes, hprogram,
    (hsymbols _ _).mpr ⟨0, ⟨[], _, rfl, rfl⟩, rfl⟩⟩

end Mips
