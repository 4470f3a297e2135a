import Mips.Proofs.Source.Acceptance

/-!
# Whatever is accepted is written in the language

`Reading.Demands` says what is still demanded of the text behind what has been read.  A
token that is taken turns the demands on the text behind it into those on the text in
front of it (`Reading.demands_of_read`), and the end of the line makes none that blanks
do not meet (`Reading.demands_of_finish`).  So an accepted text meets the demands of
whoever has read nothing, which are those on a whole line
(`Line.renders_of_accepts`).
-/
namespace Mips

namespace Body

/-- The text behind the complete last operand has further operands, and with them the
statement is the one of the line. -/
def Completes (body : Body) (last : Operand) (cs : List Char) (line : Line) : Prop :=
  body.touches = false ∧ body.tight = false ∧ ∃ operands tail blanks,
    Operand.Tail operands tail ∧ Blanks blanks ∧ cs = tail ++ blanks ∧
      line = .statement body.label? ⟨body.mnemonic, body.done.reverse ++ last :: operands⟩

/-- The text begins with the last operand and goes on as it has to. -/
def Continues (body : Body) (cs : List Char) (line : Line) : Prop :=
  ∃ operand text rest, operand.Renders text ∧ cs = text ++ rest ∧
    body.Completes operand rest line

end Body

namespace Reading

/-- The text behind a mnemonic ends the line, or has operands behind blanks. -/
def DemandsOperands (label? : Option String) (name cs : List Char) (line : Line) : Prop :=
  (Blanks cs ∧ line = .statement label? ⟨String.ofList name, []⟩) ∨
    ∃ gap rest, gap ≠ [] ∧ Blanks gap ∧ cs = gap ++ rest ∧
      Body.Continues ⟨label?, String.ofList name, false, [], false⟩ rest line

/-- The text has a statement behind blanks. -/
def DemandsStatement (label? : Option String) (cs : List Char) (line : Line) : Prop :=
  ∃ blanks name rest, Blanks blanks ∧ Terminal.identifier.Matches name ∧
    cs = blanks ++ (name ++ rest) ∧ DemandsOperands label? name rest line

/-- The text behind a label and its colon ends the line, or has a statement. -/
def DemandsRest (label : String) (cs : List Char) (line : Line) : Prop :=
  (Blanks cs ∧ line = .label label) ∨ DemandsStatement (some label) cs line

/-- The text behind an identifier in front of the line: a colon makes it a label. -/
def DemandsName (name cs : List Char) (line : Line) : Prop :=
  DemandsOperands none name cs line ∨ ∃ blanks rest, Blanks blanks ∧
    cs = blanks ++ ':' :: rest ∧ DemandsRest (String.ofList name) rest line

/-- The text behind the register of an offset closes the parenthesis. -/
def DemandsClose (body : Body) (last : Operand) (cs : List Char) (line : Line) : Prop :=
  ∃ blanks rest, Blanks blanks ∧ cs = blanks ++ ')' :: rest ∧ body.Completes last rest line

/-- The text behind the open parenthesis of an offset has a register. -/
def DemandsBase (body : Body) (number : String) (cs : List Char) (line : Line) : Prop :=
  ∃ blanks token rest, Blanks blanks ∧ Terminal.register.Matches token ∧
    cs = blanks ++ (token ++ rest) ∧
      DemandsClose body (.offset number (Register.ofToken token)) rest line

/-- The text behind a number: a parenthesis makes it an offset. -/
def DemandsNumber (body : Body) (number : String) (cs : List Char) (line : Line) : Prop :=
  body.Completes (.number number) cs line ∨ ∃ blanks rest, Blanks blanks ∧
    cs = blanks ++ '(' :: rest ∧ DemandsBase body number rest line

/-- What is still demanded of the text behind what has been read. -/
def Demands : Reading → List Char → Line → Prop
  | start, cs, line => ∃ blanks name rest, Blanks blanks ∧ Terminal.identifier.Matches name ∧
      cs = blanks ++ (name ++ rest) ∧ DemandsName name rest line
  | name token, cs, line => DemandsName token.text cs line
  | labelled label, cs, line => DemandsRest label cs line
  | mnemonic label token, cs, line => DemandsOperands (some label) token.text cs line
  | operand body last _, cs, line => body.Completes last cs line
  | number body text _, cs, line => DemandsNumber body text cs line
  | offset body text, cs, line => DemandsBase body text cs line
  | base body text register, cs, line => DemandsClose body (.offset text register) cs line
  | comma body, cs, line => ∃ blanks rest, Blanks blanks ∧ cs = blanks ++ rest ∧
      Body.Continues { body with touches := false } rest line

/-- The place that is kept of what has been read is where the text behind it starts. -/
def StopsAt (place : Nat) : Reading → Prop
  | name token | mnemonic _ token => token.stop = place
  | operand _ _ stop | number _ _ stop => stop = place
  | start | labelled _ | offset _ _ | base _ _ _ | comma _ => True

/-! ## Operands -/

variable {body : Body} {reading next : Reading} {token : Token} {last : Operand}
  {blanks rest : List Char} {place : Nat} {line : Line}

/-- A token that starts an operand starts the text of one. -/
theorem continues_of_startOperand? (htoken : token.terminal.Matches token.text)
    (h : startOperand? body token = some next) (hnext : next.Demands rest line) :
    body.Continues (token.text ++ rest) line := by
  have hnumber : IsNumber token.text →
      (number body (String.ofList token.text) token.stop).Demands rest line →
        body.Continues (token.text ++ rest) line := by
    rintro htext (hends | ⟨front, _, hfront, rfl, before, base, _, hbefore, hbase, rfl, after, rest,
      hafter, rfl, hends⟩)
    · exact ⟨_, _, rest, .number htext, rfl, hends⟩
    · have hrenders := Register.renders_ofToken hbase
      exact ⟨_, _, rest, .offset htext hfront hbefore hrenders hafter, by simp, hends⟩
  unfold startOperand? at h
  split at h
  · next hterminal =>
    cases h
    exact hnumber (.inr (hterminal ▸ htoken)) hnext
  · next hterminal =>
    cases h
    exact hnumber (.inl (hterminal ▸ htoken)) hnext
  · next hterminal =>
    cases h
    exact ⟨_, _, rest, .label (hterminal ▸ htoken), rfl, hnext⟩
  · next hterminal =>
    cases h
    exact ⟨_, _, rest, .register (Register.renders_ofToken (hterminal ▸ htoken)), rfl, hnext⟩
  · cases h

/-- An operand behind a separator goes on from the operand in front of the separator. -/
theorem completes_of_continues {separator : List Char} {touches : Bool}
    (htouches : body.touches = false) (hseparator : Separator separator)
    (h : Body.Continues { body with done := last :: body.done, touches } rest line) :
    body.Completes last (separator ++ rest) line := by
  obtain ⟨operand, text, rest, htext, rfl, -, htight, operands, tail, blanks, htail, hblanks, rfl,
    rfl⟩ := h
  refine ⟨htouches, htight, operand :: operands, _, blanks, .cons hseparator htext htail, hblanks,
    ?_, ?_⟩
  · simp
  · simp

/-- Blanks behind an operand keep the next one from touching it. -/
theorem ne_nil_of_not_beq (h : (place + Text.byteSize blanks == place) = false) : blanks ≠ [] := by
  rintro rfl
  simp [Text.byteSize] at h

theorem completes_of_afterOperand? {terminal : Terminal} {text : List Char}
    (htouches : body.touches = false) (hblanks : Blanks blanks) (htoken : terminal.Matches text)
    (h : afterOperand? body last place ⟨terminal, text, place + Text.byteSize blanks⟩ = some next)
    (hnext : next.Demands rest line) : body.Completes last (blanks ++ (text ++ rest)) line := by
  unfold afterOperand? at h
  split at h
  · next hterminal =>
    cases h
    cases hterminal
    cases htoken
    obtain ⟨after, rest, hafter, rfl, hcontinues⟩ := hnext
    have hcompletes := completes_of_continues htouches (.comma hblanks hafter) hcontinues
    simpa using hcompletes
  · have hcontinues := continues_of_startOperand? htoken h hnext
    obtain ⟨-, -, -, -, -, hstart, -⟩ := id hcontinues
    exact completes_of_continues htouches (.gap (ne_nil_of_not_beq hstart) hblanks) hcontinues

theorem demandsOperands_of_firstOperand? {label? : Option String} {head : Token}
    {terminal : Terminal} {text : List Char} (hhead : head.stop = place) (hblanks : Blanks blanks)
    (htoken : terminal.Matches text)
    (h : firstOperand? label? head ⟨terminal, text, place + Text.byteSize blanks⟩ = some next)
    (hnext : next.Demands rest line) :
    DemandsOperands label? head.text (blanks ++ (text ++ rest)) line := by
  subst hhead
  have hcontinues := continues_of_startOperand? htoken h hnext
  obtain ⟨-, -, -, -, -, -, hstart, -⟩ := id hcontinues
  simp only at hstart hcontinues
  rw [hstart] at hcontinues
  exact .inr ⟨blanks, _, ne_nil_of_not_beq hstart, hblanks, rfl, hcontinues⟩

/-! ## One token -/

theorem next?_of_read (h : reading.read token = .ok next) : reading.next? token = some next ∧
    (reading.touching && reading.completes token) = false := by
  unfold read at h
  split at h
  · cases h
  · next hnext =>
    split at h
    · cases h
    · next htouching =>
      cases h
      exact ⟨hnext, Bool.eq_false_iff.mpr htouching⟩

/-- **What is demanded behind a token is demanded in front of it, with the token.** -/
theorem demands_of_read {terminal : Terminal} {text : List Char} (hplace : reading.StopsAt place)
    (hblanks : Blanks blanks) (htoken : terminal.Matches text)
    (hread : reading.read ⟨terminal, text, place + Text.byteSize blanks⟩ = .ok next)
    (hnext : next.Demands rest line) : reading.Demands (blanks ++ (text ++ rest)) line := by
  obtain ⟨h, htouching⟩ := next?_of_read hread
  cases reading with
  | start =>
    simp only [next?, Option.ite_none_right_eq_some, Option.some.injEq] at h
    obtain ⟨rfl, rfl⟩ := h
    exact ⟨blanks, text, rest, hblanks, htoken, rfl, hnext⟩
  | name head =>
    simp only [next?] at h
    split at h
    · next hterminal =>
      cases h
      cases hterminal
      cases htoken
      exact .inr ⟨blanks, rest, hblanks, rfl, hnext⟩
    · exact .inl (demandsOperands_of_firstOperand? hplace hblanks htoken h hnext)
  | labelled label =>
    simp only [next?, Option.ite_none_right_eq_some, Option.some.injEq] at h
    obtain ⟨rfl, rfl⟩ := h
    exact .inr ⟨blanks, text, rest, hblanks, htoken, rfl, hnext⟩
  | mnemonic label head => exact demandsOperands_of_firstOperand? hplace hblanks htoken h hnext
  | operand body last stop =>
    cases hplace
    have htouches : body.touches = false := by simpa [touching, completes] using htouching
    exact completes_of_afterOperand? htouches hblanks htoken h hnext
  | number body number stop =>
    cases hplace
    simp only [next?] at h
    split at h
    · next hterminal =>
      cases h
      cases hterminal
      cases htoken
      exact .inr ⟨blanks, rest, hblanks, rfl, hnext⟩
    · next hterminal =>
      have htouches : body.touches = false := by
        simpa [touching, completes, hterminal] using htouching
      exact .inl (completes_of_afterOperand? htouches hblanks htoken h hnext)
  | offset body number =>
    simp only [next?, Option.ite_none_right_eq_some, Option.some.injEq] at h
    obtain ⟨rfl, rfl⟩ := h
    exact ⟨blanks, text, rest, hblanks, htoken, rfl, hnext⟩
  | base body number register =>
    simp only [next?, Option.ite_none_right_eq_some, Option.some.injEq] at h
    obtain ⟨rfl, rfl⟩ := h
    cases htoken
    exact ⟨blanks, rest, hblanks, rfl, hnext⟩
  | comma body => exact ⟨blanks, _, hblanks, rfl, continues_of_startOperand? htoken h hnext⟩

theorem stopsAt_of_startOperand? (h : startOperand? body token = some next) :
    next.StopsAt token.stop := by
  unfold startOperand? at h
  split at h <;> cases h <;> rfl

theorem stopsAt_of_afterOperand? (h : afterOperand? body last place token = some next) :
    next.StopsAt token.stop := by
  unfold afterOperand? at h
  split at h
  · cases h
    trivial
  · exact stopsAt_of_startOperand? h

/-- The text behind a token starts where the token stops. -/
theorem stopsAt_of_next? (h : reading.next? token = some next) : next.StopsAt token.stop := by
  cases reading with
  | start | labelled | base =>
    simp only [next?, Option.ite_none_right_eq_some, Option.some.injEq] at h
    obtain ⟨-, rfl⟩ := h
    rfl
  | offset body text =>
    simp only [next?, Option.ite_none_right_eq_some, Option.some.injEq] at h
    obtain ⟨-, rfl⟩ := h
    trivial
  | name head =>
    simp only [next?] at h
    split at h
    · cases h
      trivial
    · exact stopsAt_of_startOperand? h
  | mnemonic label head => exact stopsAt_of_startOperand? h
  | operand body last stop => exact stopsAt_of_afterOperand? h
  | number body text stop =>
    simp only [next?] at h
    split at h
    · cases h
      trivial
    · exact stopsAt_of_afterOperand? h
  | comma body => exact stopsAt_of_startOperand? h

theorem stopsAt_of_read (h : reading.read token = .ok next) : next.StopsAt token.stop :=
  stopsAt_of_next? (next?_of_read h).1

/-! ## Whole texts -/

theorem completes_of_close (hblanks : Blanks blanks) (h : close body last = .ok line) :
    body.Completes last blanks line := by
  unfold close at h
  split at h
  · cases h
  · next htouches =>
    split at h
    · cases h
    · next htight =>
      cases h
      exact ⟨Bool.eq_false_iff.mpr htouches, Bool.eq_false_iff.mpr htight, [], [], blanks, .nil,
        hblanks, rfl, by simp⟩

/-- **The end of the line meets what is demanded.** -/
theorem demands_of_finish (hblanks : Blanks blanks) (h : reading.finish place = .ok line) :
    reading.Demands blanks line := by
  cases reading with
  | start | offset | base | comma => cases h
  | name token =>
    cases h
    exact .inl (.inl ⟨hblanks, rfl⟩)
  | labelled label =>
    cases h
    exact .inl ⟨hblanks, rfl⟩
  | mnemonic label token =>
    cases h
    exact .inl ⟨hblanks, rfl⟩
  | operand body last stop => exact completes_of_close hblanks h
  | number body text stop => exact .inl (completes_of_close hblanks h)

/-- An accepted text meets the demands of what has been read. -/
theorem Accepts.demands {cs : List Char} (h : reading.Accepts place cs line)
    (hplace : reading.StopsAt place) : reading.Demands cs line := by
  induction h with
  | finish hblanks hline => exact demands_of_finish hblanks hline
  | read hblanks hlexeme hread hrest ih =>
    exact demands_of_read hplace hblanks (Lexeme.matches_of_next? hlexeme) hread
      (ih (stopsAt_of_read hread))

end Reading

/-! ## What is demanded of a line -/

section
variable {name cs : List Char} {line : Line}

/-- The text with any blanks at its end is a line behind its label. -/
theorem Statement.renders_of_demandsOperands {label? : Option String}
    (hname : Terminal.identifier.Matches name)
    (h : Reading.DemandsOperands label? name cs line) :
    ∃ content text blanks, Statement.Renders content text ∧ Blanks blanks ∧
      name ++ cs = text ++ blanks ∧ line = .statement label? content := by
  rcases h with ⟨hblanks, rfl⟩ | ⟨gap, rest, hne, hgap, rfl, operand, text, rest, htext, rfl, -, -,
    operands, tail, blanks, htail, hblanks, rfl, rfl⟩
  · exact ⟨_, name, cs, .bare hname, hblanks, rfl, rfl⟩
  · exact ⟨_, _, blanks, .operands hname hne hgap htext htail, hblanks, by simp, rfl⟩

theorem Line.renders_of_demandsName (hname : Terminal.identifier.Matches name)
    (h : Reading.DemandsName name cs line) : ∃ text blanks, line.Renders text ∧ Blanks blanks ∧
      name ++ cs = text ++ blanks := by
  rcases h with hoperands | ⟨before, rest, hbefore, rfl, ⟨hafter, rfl⟩ |
    ⟨after, mnemonic, rest, hafter, hmnemonic, rfl, hoperands⟩⟩
  · obtain ⟨content, text, blanks, htext, hblanks, happ, rfl⟩ :=
      Statement.renders_of_demandsOperands hname hoperands
    exact ⟨text, blanks, .statement htext, hblanks, happ⟩
  · exact ⟨_, rest, .label hname hbefore, hafter, by simp⟩
  · obtain ⟨content, text, blanks, htext, hblanks, happ, rfl⟩ :=
      Statement.renders_of_demandsOperands hmnemonic hoperands
    refine ⟨_, blanks, .labelled hname hbefore hafter htext, hblanks, ?_⟩
    rw [happ]
    simp

/-- **An accepted text is a line of the language between blanks.** -/
theorem Line.renders_of_accepts (h : Reading.Accepts .start 0 cs line) :
    ∃ before text after, Blanks before ∧ line.Renders text ∧ Blanks after ∧
      cs = before ++ (text ++ after) := by
  obtain ⟨before, name, rest, hbefore, hname, rfl, hdemands⟩ := h.demands trivial
  obtain ⟨text, after, htext, hafter, happ⟩ := Line.renders_of_demandsName hname hdemands
  exact ⟨before, text, after, hbefore, htext, hafter, by rw [happ]⟩

end

end Mips
