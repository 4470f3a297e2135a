import Mips.Proofs.Source.Soundness

/-!
# The language of lines

Every rendering of a line is accepted as that line, whatever blanks stand around it: its
tokens end in front of delimiters, so they are the ones that are found, and each of them
can stand where it does (`Reading.accepts_operand` for one operand,
`Reading.accepts_tail` for all that follow).  Together with the other direction a text
is read as a line exactly if it is a rendering of the line between blanks
(`Line.parse_eq_ok_iff`).  A text that is already trimmed has no such blanks
(`Line.parse_eq_ok_iff_renders`).
-/
namespace Mips

namespace Reading

variable {body : Body} {reading next : Reading} {last : Operand}
  {blanks text rest : List Char} {place : Nat} {line : Line}

/-- A token that stands in front of a delimiter is taken. -/
theorem Accepts.token {terminal : Terminal} (hblanks : Blanks blanks)
    (htext : terminal.Matches text) (hrest : Lexeme.Delimited rest)
    (hread : reading.read ⟨terminal, text, place + Text.byteSize blanks⟩ = .ok next)
    (hnext : next.Accepts (place + Text.byteSize blanks + Text.byteSize text) rest line) :
    reading.Accepts place (blanks ++ (text ++ rest)) line :=
  .read hblanks (Lexeme.next?_of_delimited htext hrest) hread hnext

/-- A mark is taken, whatever it stands in front of. -/
theorem Accepts.mark {terminal : Terminal} {c : Char} (hblanks : Blanks blanks)
    (hlexeme : Lexeme.next? (c :: rest) = some ⟨terminal, [c], rest⟩)
    (hread : reading.read ⟨terminal, [c], place + Text.byteSize blanks⟩ = .ok next)
    (hnext : next.Accepts (place + Text.byteSize blanks + Text.byteSize [c]) rest line) :
    reading.Accepts place (blanks ++ c :: rest) line :=
  @Accepts.read reading next place blanks [c] rest terminal line hblanks hlexeme hread hnext

/-! ## Operands -/

/-- A number in front of a parenthesis becomes an offset, whether it touches the operand
before it or not. -/
theorem accepts_offset {number : String} {base : Register} {before token after : List Char}
    (hblanks : Blanks blanks) (hbefore : Blanks before) (hbase : base.Renders token)
    (hafter : Blanks after)
    (hrest : ∀ stop, (operand body (.offset number base) stop).Accepts stop rest line)
    (stop : Nat) :
    (Reading.number body number stop).Accepts place
      (blanks ++ '(' :: (before ++ (token ++ (after ++ ')' :: rest)))) line := by
  have hopen : ∀ start, (Reading.number body number stop).read ⟨.openParen, ['('], start⟩ =
      .ok (offset body number) := by
    intro start
    simp [read, next?, touching, completes]
  cases hbase.eq_ofToken
  refine .mark hblanks rfl (hopen _) ?_
  refine .token hbefore hbase.matches ?_ rfl ?_
  · exact hafter.delimited_append (Lexeme.delimited_cons (by decide) rest)
  · exact .mark hafter rfl rfl (hrest _)

/-- What has been read takes any token that starts an operand as the start of the last
operand of `body`. -/
def Starts (body : Body) (start : Nat) (reading : Reading) : Prop :=
  ∀ terminal ∈ operandStarts, ∀ text next,
    startOperand? body ⟨terminal, text, start⟩ = some next →
      reading.read ⟨terminal, text, start⟩ = .ok next

/-- What has been read ends with the complete operand `last`. -/
def EndsWith (body : Body) (last : Operand) (stop : Nat) (reading : Reading) : Prop :=
  reading = operand body last stop ∨ ∃ text, last = .number text ∧ reading = number body text stop

/-- An operand is read as it is written. -/
theorem accepts_operand (hblanks : Blanks blanks) (htext : last.Renders text)
    (hdelimited : Lexeme.Delimited rest)
    (hstart : reading.Starts body (place + Text.byteSize blanks))
    (hrest : ∀ (next : Reading) (stop : Nat), next.EndsWith body last stop →
      next.Accepts stop rest line) :
    reading.Accepts place (blanks ++ (text ++ rest)) line := by
  cases htext with
  | register hregister =>
    cases hregister.eq_ofToken
    exact .token hblanks hregister.matches hdelimited (hstart _ (by decide) _ _ rfl)
      (hrest _ _ (.inl rfl))
  | label hname =>
    exact .token hblanks hname hdelimited (hstart _ (by decide) _ _ rfl) (hrest _ _ (.inl rfl))
  | @number text htext =>
    have hnumber := fun stop => hrest _ stop (.inr ⟨String.ofList text, rfl, rfl⟩)
    rcases htext with htext | htext
    · exact .token hblanks htext hdelimited (hstart _ (by decide) _ _ rfl) (hnumber _)
    · exact .token hblanks htext hdelimited (hstart _ (by decide) _ _ rfl) (hnumber _)
  | @offset base number front before token after hnumber hfront hbefore hbase hafter =>
    have happ : number ++ (front ++ '(' :: (before ++ (token ++ (after ++ [')'])))) ++ rest =
        number ++ (front ++ '(' :: (before ++ (token ++ (after ++ ')' :: rest)))) := by
      simp
    have hdelimited' : Lexeme.Delimited
        (front ++ '(' :: (before ++ (token ++ (after ++ ')' :: rest)))) :=
      hfront.delimited_append (Lexeme.delimited_cons (by decide) _)
    have hoffset : ∀ stop, (Reading.number body (String.ofList number) stop).Accepts stop
        (front ++ '(' :: (before ++ (token ++ (after ++ ')' :: rest)))) line := fun stop =>
      accepts_offset hfront hbefore hbase hafter (fun stop => hrest _ stop (.inl rfl)) stop
    rw [happ]
    rcases hnumber with hnumber | hnumber
    · exact .token hblanks hnumber hdelimited' (hstart _ (by decide) _ _ rfl) (hoffset _)
    · exact .token hblanks hnumber hdelimited' (hstart _ (by decide) _ _ rfl) (hoffset _)

/-- Behind a complete operand that touches no other one, a comma or the start of the
next operand is taken. -/
theorem EndsWith.read_eq {token : Token} (h : reading.EndsWith body last place)
    (htouches : body.touches = false) (htoken : token.terminal ≠ .openParen) :
    reading.read token = match afterOperand? body last place token with
      | none => .error (.unexpectedToken token reading.expected)
      | some next => .ok next := by
  rcases h with rfl | ⟨number, rfl, rfl⟩
  · simp only [read, next?, touching, htouches, Bool.false_and]
    rfl
  · simp only [read, next?, touching, htouches, Bool.false_and, if_neg htoken]
    rfl

theorem EndsWith.read_comma {text : List Char} {start : Nat}
    (h : reading.EndsWith body last place) (htouches : body.touches = false) :
    reading.read ⟨.comma, text, start⟩ = .ok (comma { body with done := last :: body.done }) := by
  have hparen : Terminal.comma ≠ .openParen := by decide
  rw [h.read_eq htouches hparen]
  rfl

theorem EndsWith.starts {start : Nat} (h : reading.EndsWith body last place)
    (htouches : body.touches = false) (hstart : place < start) :
    reading.Starts { body with done := last :: body.done, touches := false } start := by
  intro terminal hterminal text next hnext
  have hcomma : terminal ≠ .comma := ne_of_mem_of_not_mem hterminal (by decide)
  have hparen : terminal ≠ .openParen := ne_of_mem_of_not_mem hterminal (by decide)
  have hbehind : (start == place) = false := beq_false_of_ne (Nat.ne_of_gt hstart)
  rw [h.read_eq htouches hparen, afterOperand?, if_neg hcomma, hbehind, hnext]

theorem starts_comma (start : Nat) :
    (comma body).Starts { body with touches := false } start := by
  intro terminal _ text next hnext
  simp only [read, next?, hnext, touching, Bool.false_and]
  rfl

/-- **Further operands are read as they are written.** -/
theorem accepts_tail {operands : List Operand} (htail : Operand.Tail operands text)
    (hblanks : Blanks blanks) (htouches : body.touches = false) (htight : body.tight = false)
    (hreading : reading.EndsWith body last place) :
    reading.Accepts place (text ++ blanks)
      (.statement body.label? ⟨body.mnemonic, body.done.reverse ++ last :: operands⟩) := by
  -- every operand extends those that are done, so the statement so far is general
  induction htail generalizing body last reading place with
  | nil =>
    refine .finish hblanks ?_
    rcases hreading with rfl | ⟨number, rfl, rfl⟩
    · simp [finish, close, htouches, htight]
    · simp [finish, close, htouches, htight]
  | @cons operand operands separator text rest hseparator htext htail ih =>
    have hrest : ∀ (next : Reading) (stop : Nat),
        next.EndsWith { body with done := last :: body.done, touches := false } operand stop →
          next.Accepts stop (rest ++ blanks) (.statement body.label?
            ⟨body.mnemonic, body.done.reverse ++ last :: operand :: operands⟩) := by
      intro next stop hnext
      have htight' : Body.tight { body with done := last :: body.done, touches := false } = false :=
        htight
      simpa using ih rfl htight' hnext
    have hdelimited : Lexeme.Delimited (rest ++ blanks) := htail.delimited hblanks
    rw [List.append_assoc, List.append_assoc]
    cases hseparator with
    | comma hbefore hafter =>
      rw [List.append_assoc]
      refine .mark hbefore rfl (hreading.read_comma htouches) ?_
      exact accepts_operand hafter htext hdelimited (starts_comma _) hrest
    | gap hne hgap =>
      have hbehind : place < place + Text.byteSize separator :=
        Nat.lt_add_of_pos_right (Text.byteSize_pos hne)
      exact accepts_operand hgap htext hdelimited (hreading.starts htouches hbehind) hrest

/-! ## Statements -/

/-- What has been read in front of a statement: nothing, or a label. -/
def front : Option String → Reading
  | none => start
  | some label => labelled label

/-- What has been read of a statement with its mnemonic. -/
def head : Option String → Token → Reading
  | none, token => name token
  | some label, token => mnemonic label token

variable {label? : Option String}

theorem read_front {token : Token} (h : token.terminal = .identifier) :
    (front label?).read token = .ok (head label? token) := by
  cases label? with
  | none => simp [front, head, read, next?, h, touching]
  | some label => simp [front, head, read, next?, h, touching]

theorem finish_head (token : Token) (place : Nat) :
    (head label? token).finish place =
      .ok (.statement label? ⟨String.ofList token.text, []⟩) := by
  cases label? with
  | none => rfl
  | some label => rfl

theorem starts_head {token : Token} {start : Nat} (hstart : token.stop < start) :
    (head label? token).Starts ⟨label?, String.ofList token.text, false, [], false⟩ start := by
  intro terminal hterminal text next hnext
  have hcolon : terminal ≠ .colon := ne_of_mem_of_not_mem hterminal (by decide)
  have hbehind : (start == token.stop) = false := beq_false_of_ne (Nat.ne_of_gt hstart)
  have hfirst : firstOperand? label? token ⟨terminal, text, start⟩ = some next := by
    rw [firstOperand?, hbehind, hnext]
  cases label? with
  | none =>
    simp only [head, read, next?, if_neg hcolon, hfirst, touching, Bool.false_and]
    rfl
  | some label =>
    simp only [head, read, next?, hfirst, touching, Bool.false_and]
    rfl

/-- **A statement is read as it is written**, behind its label if it has one. -/
theorem accepts_statement (label? : Option String) {content : Statement} {after : List Char}
    (hblanks : Blanks blanks) (htext : content.Renders text) (hafter : Blanks after) :
    (front label?).Accepts place (blanks ++ (text ++ after)) (.statement label? content) := by
  cases htext with
  | bare hname =>
    exact .token hblanks hname hafter.delimited (read_front rfl) (.finish hafter (finish_head _ _))
  | @operands name gap first rest operand operands hname hne hgap hfirst htail =>
    have hgap' : Lexeme.Delimited (gap ++ (first ++ (rest ++ after))) :=
      (Separator.gap hne hgap).delimited_append _
    have hbehind : ∀ stop, stop < stop + Text.byteSize gap := fun stop =>
      Nat.lt_add_of_pos_right (Text.byteSize_pos hne)
    have happ : name ++ (gap ++ (first ++ rest)) ++ after =
        name ++ (gap ++ (first ++ (rest ++ after))) := by
      simp
    rw [happ]
    refine .token hblanks hname hgap' (read_front rfl) ?_
    exact accepts_operand hgap hfirst (htail.delimited hafter) (starts_head (hbehind _))
      fun next stop hnext => accepts_tail htail hafter rfl rfl hnext

end Reading

/-! ## Lines -/

/-- **A line is read as it is written**, between blanks. -/
theorem Line.Renders.accepts {line : Line} {before text after : List Char}
    (htext : line.Renders text) (hbefore : Blanks before) (hafter : Blanks after) :
    Reading.Accepts .start 0 (before ++ (text ++ after)) line := by
  cases htext with
  | @label name gap hname hgap =>
    have happ : name ++ (gap ++ [':']) ++ after = name ++ (gap ++ ':' :: after) := by simp
    rw [happ]
    refine .token hbefore hname (hgap.delimited_append (Lexeme.delimited_cons (by decide) _)) rfl ?_
    exact .mark hgap rfl rfl (.finish hafter (by simp [Reading.finish]))
  | statement hcontent =>
    exact Reading.accepts_statement none hbefore hcontent hafter
  | @labelled name gap gap' text content hname hgap hgap' hcontent =>
    have happ : name ++ (gap ++ ':' :: (gap' ++ text)) ++ after =
        name ++ (gap ++ ':' :: (gap' ++ (text ++ after))) := by simp
    rw [happ]
    refine .token hbefore hname (hgap.delimited_append (Lexeme.delimited_cons (by decide) _)) rfl ?_
    refine .mark hgap rfl rfl ?_
    exact Reading.accepts_statement (some _) hgap' hcontent hafter

/-- A text is read as a line exactly if it is a rendering of the line between blanks. -/
theorem Line.parse_eq_ok_iff {cs : List Char} {line : Line} : Line.parse cs = .ok line ↔
    ∃ before text after, Blanks before ∧ line.Renders text ∧ Blanks after ∧
      cs = before ++ (text ++ after) := by
  rw [Line.parse_eq_ok_iff_accepts]
  constructor
  · exact Line.renders_of_accepts
  · rintro ⟨before, text, after, hbefore, htext, hafter, rfl⟩
    exact htext.accepts hbefore hafter

/-- No text is a rendering of two lines. -/
theorem Line.Renders.unique {line line' : Line} {text : List Char} (h : line.Renders text)
    (h' : line'.Renders text) : line = line' := by
  have happ : text = [] ++ (text ++ []) := by simp
  have hparse := Line.parse_eq_ok_iff.mpr ⟨[], text, [], .nil, h, .nil, happ⟩
  have hparse' := Line.parse_eq_ok_iff.mpr ⟨[], text, [], .nil, h', .nil, happ⟩
  exact Except.ok.inj (hparse.symm.trans hparse')

/-! ## Trimmed texts -/

namespace Text

theorem not_isBlank_of_dropWhile {cs rest : List Char} {c : Char}
    (h : cs.dropWhile isBlank = c :: rest) : ¬ isBlank c := by
  have hhead := List.head?_dropWhile_not isBlank cs
  rw [h, List.head?_cons] at hhead
  exact Bool.eq_false_iff.mp hhead

/-- What is left of a text without the blanks in front of it begins with its trimmed
text. -/
theorem exists_append_of_trim (cs : List Char) :
    ∃ rest, cs.dropWhile isBlank = trim cs ++ rest := by
  refine ⟨((cs.dropWhile isBlank).reverse.takeWhile isBlank).reverse, ?_⟩
  rw [trim, ← List.reverse_append, List.takeWhile_append_dropWhile, List.reverse_reverse]

/-- A trimmed text has no blanks at its ends. -/
theorem eq_nil_of_trim {cs before text after : List Char}
    (h : trim cs = before ++ (text ++ after)) (hbefore : Blanks before) (hafter : Blanks after) :
    before = [] ∧ after = [] := by
  constructor
  · cases before with
    | nil => rfl
    | cons c before =>
      obtain ⟨rest, hrest⟩ := exists_append_of_trim cs
      rw [h] at hrest
      exact absurd (hbefore c List.mem_cons_self) (not_isBlank_of_dropWhile hrest)
  · cases hlast : after.reverse with
    | nil => exact List.reverse_eq_nil_iff.mp hlast
    | cons c front =>
      have hc : c ∈ after := List.mem_reverse.mp (hlast ▸ List.mem_cons_self)
      have hdrop : (cs.dropWhile isBlank).reverse.dropWhile isBlank =
          c :: (front ++ text.reverse ++ before.reverse) := by
        rw [← List.reverse_reverse (List.dropWhile _ _), ← trim, h]
        simp [hlast]
      exact absurd (hafter c hc) (not_isBlank_of_dropWhile hdrop)

end Text

theorem Line.parse_trim_eq_ok_iff {cs : List Char} {line : Line} :
    Line.parse (Text.trim cs) = .ok line ↔ line.Renders (Text.trim cs) := by
  rw [Line.parse_eq_ok_iff]
  constructor
  · rintro ⟨before, text, after, hbefore, htext, hafter, htrim⟩
    obtain ⟨rfl, rfl⟩ := Text.eq_nil_of_trim htrim hbefore hafter
    rw [htrim]
    simpa using htext
  · intro htext
    exact ⟨[], _, [], .nil, htext, .nil, by simp⟩

/-- **The language of lines.**  A trimmed text is read as a line exactly if it is a
rendering of that line. -/
theorem Line.parse_eq_ok_iff_renders {cs : List Char} (htrimmed : Text.trim cs = cs)
    {line : Line} : Line.parse cs = .ok line ↔ line.Renders cs := by
  rw [← htrimmed]
  exact Line.parse_trim_eq_ok_iff

theorem Line.parse_eq_ok_iff_renders_load :
    Line.Renders (.statement (some ".L1") ⟨"lw", [.register (.numbered 8),
        .offset "-0x1F" (.named "sp")]⟩) ".L1 :lw\t$08 ,-0x1F ( $sp )".toList ∧
      ∀ line, ¬ Line.Renders line "lw $8-0x1F($sp)".toList := by
  constructor
  · exact (Line.parse_eq_ok_iff_renders (by decide)).mp (by decide +kernel)
  · intro line h
    have hparse := (Line.parse_eq_ok_iff_renders (by decide)).mpr h
    have herror : Line.parse "lw $8-0x1F($sp)".toList = .error .operandsTouch := by
      decide +kernel
    rw [herror] at hparse
    cases hparse

end Mips
