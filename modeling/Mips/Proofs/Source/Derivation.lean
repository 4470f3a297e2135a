import Mips.Source.Grammar

/-!
# Derivable token sequences

The grammar of a line over kinds of token alone, production by production, and without a
word about how a line is read.  A sequence is viable if it can be continued to a line that
the grammar derives (`Grammar.Viable`).

Tokens of kinds that make a derivable sequence can be taken one after the other, whatever
their texts and places are, and what has been read then can be the end of the line
(`Reading.takes_of_isLine`).
-/
namespace Mips

/-- The kinds of token that are numbers. -/
def Terminal.IsNumeric (terminal : Terminal) : Prop :=
  terminal = .decimal ∨ terminal = .hexadecimal

/-! ## The grammar -/

namespace Grammar

/-- The sequences that are an operand. -/
inductive IsOperand : List Terminal → Prop
  | register : IsOperand [.register]
  | number {terminal : Terminal} (h : terminal.IsNumeric) : IsOperand [terminal]
  | label : IsOperand [.identifier]
  | offset {terminal : Terminal} (h : terminal.IsNumeric) :
      IsOperand [terminal, .openParen, .register, .closeParen]

/-- The sequences of one or more operands, with or without commas between them. -/
inductive IsOperands : List Terminal → Prop
  | single {ts : List Terminal} (h : IsOperand ts) : IsOperands ts
  | gap {front back : List Terminal} (hfront : IsOperands front) (hback : IsOperand back) :
      IsOperands (front ++ back)
  | comma {front back : List Terminal} (hfront : IsOperands front) (hback : IsOperand back) :
      IsOperands (front ++ .comma :: back)

/-- The sequences that are a statement: a mnemonic, perhaps with operands. -/
inductive IsStatement : List Terminal → Prop
  | bare : IsStatement [.identifier]
  | operands {ts : List Terminal} (h : IsOperands ts) : IsStatement (.identifier :: ts)

/-- The sequences that are a line: a label, a statement, or both. -/
inductive IsLine : List Terminal → Prop
  | label : IsLine [.identifier, .colon]
  | labelled {ts : List Terminal} (h : IsStatement ts) : IsLine (.identifier :: .colon :: ts)
  | statement {ts : List Terminal} (h : IsStatement ts) : IsLine ts

/-- The sequence is the beginning of a derivable one. -/
def Viable (ts : List Terminal) : Prop :=
  ∃ rest, IsLine (ts ++ rest)

/-- What stands in front of the operands of a line: a mnemonic, perhaps behind a label. -/
inductive IsHead : List Terminal → Prop
  | mnemonic : IsHead [.identifier]
  | labelled : IsHead [.identifier, .colon, .identifier]

variable {ts head front back : List Terminal}

theorem IsLine.viable (h : IsLine ts) : Viable ts :=
  ⟨[], by rwa [List.append_nil]⟩

theorem IsHead.isLine_append (h : IsHead head) (hoperands : IsOperands ts) :
    IsLine (head ++ ts) := by
  cases h with
  | mnemonic => exact .statement (.operands hoperands)
  | labelled => exact .labelled (.operands hoperands)

/-- A line is a label, or a head with operands or without. -/
theorem IsLine.exists_head (h : IsLine ts) : ts = [.identifier, .colon] ∨ IsHead ts ∨
    ∃ head operands, ts = head ++ operands ∧ IsHead head ∧ IsOperands operands := by
  cases h with
  | label => exact .inl rfl
  | labelled h =>
    cases h with
    | bare => exact .inr (.inl .labelled)
    | operands h => exact .inr (.inr ⟨_, _, rfl, .labelled, h⟩)
  | statement h =>
    cases h with
    | bare => exact .inr (.inl .mnemonic)
    | operands h => exact .inr (.inr ⟨_, _, rfl, .mnemonic, h⟩)

/-- The last token of an operand is no comma, so no operands end with one. -/
theorem IsOperands.ne_append_comma (h : IsOperands ts) : ts ≠ front ++ [.comma] := by
  have hoperand : ∀ {front back}, IsOperand back → (front ++ back).getLast? ≠ some .comma := by
    intro front back hback
    cases hback with
    | register | label | offset => simp
    | number h => rcases h with rfl | rfl <;> simp
  have hlast : ts.getLast? ≠ some .comma := by
    cases h with
    | single h => exact @hoperand [] _ h
    | gap _ hback => exact hoperand hback
    | comma _ hback =>
      rw [List.append_cons]
      exact hoperand hback
  rintro rfl
  exact hlast List.getLast?_concat

theorem IsOperand.exists_cons (h : IsOperand ts) :
    ∃ t rest, ts = t :: rest ∧ t ∈ Reading.operandStarts := by
  cases h with
  | register | label => exact ⟨_, _, rfl, by decide⟩
  | number h | offset h => rcases h with rfl | rfl <;> exact ⟨_, _, rfl, by decide⟩

/-- Operands begin with the first token of an operand. -/
theorem IsOperands.exists_cons (h : IsOperands ts) :
    ∃ t rest, ts = t :: rest ∧ t ∈ Reading.operandStarts := by
  induction h with
  | single h => exact h.exists_cons
  | gap _ _ ih | comma _ _ ih =>
    obtain ⟨t, rest, rfl, ht⟩ := ih
    exact ⟨t, _, rfl, ht⟩

/-- Where the operands begin is no matter of choice, for only a label has a colon behind
it. -/
theorem IsHead.length_eq {head' ts' : List Terminal} (hhead : IsHead head)
    (hhead' : IsHead head') (hts : IsOperands ts) (hts' : IsOperands ts')
    (h : head ++ ts = head' ++ ts') : head.length = head'.length := by
  have hcolon : .colon ∉ Reading.operandStarts := by decide
  obtain ⟨t, rest, rfl, ht⟩ := hts.exists_cons
  obtain ⟨t', rest', rfl, ht'⟩ := hts'.exists_cons
  cases hhead with
  | mnemonic =>
    cases hhead' with
    | mnemonic => rfl
    | labelled =>
      cases h
      exact absurd ht hcolon
  | labelled =>
    cases hhead' with
    | mnemonic =>
      cases h
      exact absurd ht' hcolon
    | labelled => rfl

/-- Nor is where the last operand begins, for only an offset ends with a parenthesis. -/
theorem IsOperand.length_eq {front' back' : List Terminal} (hback : IsOperand back)
    (hback' : IsOperand back') (h : front ++ back = front' ++ back') :
    back.length = back'.length := by
  have hclose : ∀ {front back}, IsOperand back →
      ((front ++ back).getLast? = some .closeParen ↔ back.length = 4) ∧
        (back.length = 1 ∨ back.length = 4) := by
    intro front back hback
    cases hback with
    | register | label | offset => simp
    | number h => rcases h with rfl | rfl <;> simp
  obtain ⟨hlast, hlength⟩ := @hclose front back hback
  obtain ⟨hlast', hlength'⟩ := @hclose front' back' hback'
  rw [h, hlast'] at hlast
  omega

end Grammar

/-! ## Whatever is derivable can be taken -/

namespace Reading

open Grammar

/-- Tokens of the given kinds can be taken one after the other, and `good` holds of what has
been read then. -/
def Takes : Reading → List Terminal → (Reading → Prop) → Prop
  | reading, [], good => good reading
  | reading, terminal :: rest, good => ∀ token : Token, token.terminal = terminal →
      ∃ next, reading.next? token = some next ∧ next.Takes rest good

variable {reading : Reading} {ts rest : List Terminal} {good good' : Reading → Prop}

theorem Takes.imp (hgood : ∀ reading, good reading → good' reading)
    (h : reading.Takes ts good) : reading.Takes ts good' := by
  induction ts generalizing reading with
  | nil => exact hgood _ h
  | cons terminal ts ih =>
    intro token htoken
    obtain ⟨next, hnext, hrest⟩ := h token htoken
    exact ⟨next, hnext, ih hrest⟩

theorem takes_append : reading.Takes (ts ++ rest) good ↔
    reading.Takes ts fun next => next.Takes rest good := by
  induction ts generalizing reading with
  | nil => rfl
  | cons terminal ts ih =>
    rw [List.cons_append, Takes, Takes]
    simp only [ih]

/-- Any token that starts an operand starts one here. -/
def Opens (reading : Reading) : Prop :=
  ∀ token : Token, token.terminal ∈ operandStarts →
    ∃ body, reading.next? token = startOperand? body token

/-- The last operand that has been read is complete. -/
def HasOperand : Reading → Prop
  | operand _ _ _ | number _ _ _ => True
  | _ => False

/-- What has been read can be all of the line. -/
def Complete : Reading → Prop
  | name _ | labelled _ | mnemonic _ _ | operand _ _ _ | number _ _ _ => True
  | _ => False

theorem opens_name (head : Token) : (name head).Opens := by
  intro token htoken
  have hcolon : token.terminal ≠ .colon := ne_of_mem_of_not_mem htoken (by decide)
  exact ⟨_, if_neg hcolon⟩

theorem opens_mnemonic (label : String) (head : Token) : (mnemonic label head).Opens :=
  fun _ _ => ⟨_, rfl⟩

theorem opens_comma (body : Body) : (comma body).Opens :=
  fun _ _ => ⟨_, rfl⟩

theorem HasOperand.opens (h : reading.HasOperand) : reading.Opens := by
  intro token htoken
  have hcomma : token.terminal ≠ .comma := ne_of_mem_of_not_mem htoken (by decide)
  have hparen : token.terminal ≠ .openParen := ne_of_mem_of_not_mem htoken (by decide)
  cases reading with
  | operand body last stop => exact ⟨_, if_neg hcomma⟩
  | number body text stop => exact ⟨_, (if_neg hparen).trans (if_neg hcomma)⟩
  | _ => exact h.elim

theorem HasOperand.exists_comma (h : reading.HasOperand) {token : Token}
    (htoken : token.terminal = .comma) : ∃ body, reading.next? token = some (comma body) := by
  have hparen : token.terminal ≠ .openParen := by
    rw [htoken]
    decide
  cases reading with
  | operand body last stop => exact ⟨_, if_pos htoken⟩
  | number body text stop => exact ⟨_, (if_neg hparen).trans (if_pos htoken)⟩
  | _ => exact h.elim

theorem HasOperand.complete (h : reading.HasOperand) : reading.Complete := by
  cases reading with
  | operand | number => trivial
  | _ => exact h.elim

theorem takes_operand (hopens : reading.Opens) (h : IsOperand ts) :
    reading.Takes ts HasOperand := by
  have hnumber : ∀ {terminal : Terminal}, terminal.IsNumeric → ∀ {token : Token},
      token.terminal = terminal → ∃ body,
        reading.next? token = some (number body (String.ofList token.text) token.stop) := by
    rintro terminal (rfl | rfl) token htoken
    · obtain ⟨body, hbody⟩ := hopens token (by rw [htoken]; decide)
      exact ⟨body, by rw [hbody, startOperand?, htoken]⟩
    · obtain ⟨body, hbody⟩ := hopens token (by rw [htoken]; decide)
      exact ⟨body, by rw [hbody, startOperand?, htoken]⟩
  cases h with
  | register | label =>
    intro token htoken
    obtain ⟨body, hbody⟩ := hopens token (by rw [htoken]; decide)
    rw [startOperand?, htoken] at hbody
    exact ⟨_, hbody, trivial⟩
  | number hnumeric =>
    intro token htoken
    obtain ⟨body, hbody⟩ := hnumber hnumeric htoken
    exact ⟨_, hbody, trivial⟩
  | offset hnumeric =>
    intro token htoken
    obtain ⟨body, hbody⟩ := hnumber hnumeric htoken
    refine ⟨_, hbody, fun paren hparen => ⟨_, if_pos hparen, ?_⟩⟩
    exact fun base hbase => ⟨_, if_pos hbase, fun close hclose => ⟨_, if_pos hclose, trivial⟩⟩

theorem takes_operands (hopens : reading.Opens) (h : IsOperands ts) :
    reading.Takes ts HasOperand := by
  induction h with
  | single h => exact takes_operand hopens h
  | gap _ hback ih =>
    exact takes_append.mpr (ih.imp fun next hnext => takes_operand hnext.opens hback)
  | comma _ hback ih =>
    refine takes_append.mpr (ih.imp fun next hnext token htoken => ?_)
    obtain ⟨body, hbody⟩ := hnext.exists_comma htoken
    exact ⟨_, hbody, takes_operand (opens_comma body) hback⟩

theorem takes_head (h : IsHead ts) :
    start.Takes ts fun reading => reading.Opens ∧ reading.Complete := by
  cases h with
  | mnemonic => exact fun token htoken => ⟨_, if_pos htoken, opens_name token, trivial⟩
  | labelled =>
    refine fun label hlabel => ⟨_, if_pos hlabel, fun colon hcolon => ⟨_, if_pos hcolon, ?_⟩⟩
    exact fun head hhead => ⟨_, if_pos hhead, opens_mnemonic _ head, trivial⟩

theorem takes_head_append {head : List Terminal} (hhead : IsHead head)
    (hoperands : IsOperands ts) : start.Takes (head ++ ts) HasOperand :=
  takes_append.mpr ((takes_head hhead).imp fun _ h => takes_operands h.1 hoperands)

/-- **Every derivable sequence can be taken**, up to the end of the line. -/
theorem takes_of_isLine (h : IsLine ts) : start.Takes ts Complete := by
  rcases h.exists_head with rfl | hhead | ⟨head, operands, rfl, hhead, hoperands⟩
  · exact fun label hlabel => ⟨_, if_pos hlabel, fun colon hcolon => ⟨_, if_pos hcolon, trivial⟩⟩
  · exact (takes_head hhead).imp fun _ h => h.2
  · exact (takes_head_append hhead hoperands).imp fun _ => HasOperand.complete

end Reading
end Mips
