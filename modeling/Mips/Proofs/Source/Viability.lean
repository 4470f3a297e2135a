import Mips.Proofs.Source.Tracing

/-!
# Viable tokens

Tokens can be taken one after the other exactly if they are the beginning of a derivable
sequence (`Reading.viable_iff`), and they can be all of the line exactly if they are
derivable themselves (`Reading.isLine_iff`).  The kinds of token that are expected behind
them are those that keep them viable (`Reading.expected_eq`).
-/
namespace Mips

open Grammar

namespace Reading

variable {body : Body} {reading next : Reading} {tokens : List Token} {token : Token}

/-- Whatever can be taken is taken. -/
theorem Takes.exists_foldlM {good : Reading → Prop} (h : reading.Takes (kinds tokens) good) :
    ∃ next, tokens.foldlM next? reading = some next ∧ good next := by
  induction tokens generalizing reading with
  | nil => exact ⟨reading, rfl, h⟩
  | cons token tokens ih =>
    obtain ⟨next, hnext, hrest⟩ := h token rfl
    obtain ⟨last, hlast, hgood⟩ := ih hrest
    refine ⟨last, ?_, hgood⟩
    rw [List.foldlM_cons, hnext]
    exact hlast

theorem Traces.isLine (h : reading.Traces tokens) (hcomplete : reading.Complete) :
    IsLine (kinds tokens) := by
  cases reading with
  | name =>
    rw [h.1]
    exact .statement .bare
  | labelled =>
    rw [Traces] at h
    rw [h]
    exact .label
  | mnemonic =>
    rw [h.1]
    exact .labelled .bare
  | operand =>
    obtain ⟨back, hbody, hback⟩ := h
    exact (hbody.completed hback).isLine
  | number =>
    obtain ⟨back, terminal, hbody, hnumeric, hback⟩ := h
    exact (hbody.completed (hback ▸ .number hnumeric)).isLine
  | start | offset | base | comma => exact hcomplete.elim

/-- Whatever has been read can be continued to a line. -/
theorem Traces.viable (h : reading.Traces tokens) : Viable (kinds tokens) := by
  let base : Token := ⟨.register, [], 0⟩
  let close : Token := ⟨.closeParen, [], 0⟩
  cases reading with
  | start =>
    cases h
    exact ⟨[.identifier], .statement .bare⟩
  | name | labelled | mnemonic | operand | number => exact (h.isLine trivial).viable
  | offset =>
    obtain ⟨back, terminal, hbody, hnumeric, hback⟩ := h
    have hoperand : IsOperand (kinds (back ++ [base] ++ [close])) := by
      rw [kinds_append, kinds_append, hback]
      exact .offset hnumeric
    refine ⟨[.register, .closeParen], ?_⟩
    simpa [kinds] using (((hbody.snoc base).snoc close).completed hoperand).isLine
  | base =>
    obtain ⟨back, terminal, hbody, hnumeric, hback⟩ := h
    have hoperand : IsOperand (kinds (back ++ [close])) := by
      rw [kinds_append, hback]
      exact .offset hnumeric
    refine ⟨[.closeParen], ?_⟩
    simpa [kinds] using ((hbody.snoc close).completed hoperand).isLine
  | comma =>
    obtain ⟨before, comma, rfl, hcomma, head, operands, rfl, hhead, hoperands, -⟩ := h
    refine ⟨[.register], ?_⟩
    simpa [kinds, hcomma] using hhead.isLine_append (.comma hoperands .register)

/-- **Tokens can be taken one after the other exactly if they are viable.** -/
theorem viable_iff : Viable (kinds tokens) ↔ ∃ reading, after? tokens = some reading := by
  constructor
  · rintro ⟨rest, hline⟩
    obtain ⟨reading, hreading, -⟩ := (takes_append.mp (takes_of_isLine hline)).exists_foldlM
    exact ⟨reading, hreading⟩
  · rintro ⟨reading, hreading⟩
    exact (traces_of_after? hreading).1.viable

/-- Tokens of the given kinds, without a text and a place. -/
def blankTokens (ts : List Terminal) : List Token :=
  ts.map fun terminal => ⟨terminal, [], 0⟩

theorem kinds_blankTokens (ts : List Terminal) : kinds (blankTokens ts) = ts := by
  rw [kinds, blankTokens, List.map_map]
  exact List.map_id ts

instance : DecidablePred Viable := fun ts =>
  decidable_of_iff ((after? (blankTokens ts)).isSome = true) <| by
    rw [Option.isSome_iff_exists, ← viable_iff, kinds_blankTokens]

theorem mem_operandStarts_iff : token.terminal ∈ operandStarts ↔
    ∃ next, startOperand? body token = some next := by
  unfold startOperand?
  split <;> simp_all [operandStarts]

theorem mem_cons_operandStarts_iff {last : Operand} {stop : Nat} :
    token.terminal ∈ .comma :: operandStarts ↔
      ∃ next, afterOperand? body last stop token = some next := by
  unfold afterOperand?
  rw [List.mem_cons]
  split
  · next hcomma => simp [hcomma]
  · next hcomma =>
    rw [← mem_operandStarts_iff]
    exact or_iff_right hcomma

/-- A token can be taken exactly if its kind is expected. -/
theorem mem_expected_iff_next? :
    token.terminal ∈ reading.expected ↔ ∃ next, reading.next? token = some next := by
  cases reading with
  | start | labelled | offset | base => simp [expected, next?]
  | name head =>
    simp only [expected, next?, List.mem_cons]
    split
    · next hcolon => simp [hcolon]
    · next hcolon => exact (or_iff_right hcolon).trans mem_operandStarts_iff
  | mnemonic label head => exact mem_operandStarts_iff
  | operand body last stop => exact mem_cons_operandStarts_iff
  | number body text stop =>
    rw [expected, List.mem_cons]
    simp only [next?]
    split
    · next hparen => simp [hparen]
    · next hparen => exact (or_iff_right hparen).trans mem_cons_operandStarts_iff
  | comma body => exact mem_operandStarts_iff

/-- **The kinds of token that are expected are those that keep the tokens viable.** -/
theorem mem_expected_iff (h : after? tokens = some reading) {terminal : Terminal} :
    terminal ∈ reading.expected ↔ Viable (kinds tokens ++ [terminal]) := by
  have hkinds : kinds tokens ++ [terminal] = kinds (tokens ++ blankTokens [terminal]) := by
    rw [kinds_append, kinds_blankTokens]
  rw [hkinds, viable_iff]
  simp only [blankTokens, List.map_cons, List.map_nil, after?_concat, h, Option.some.injEq,
    exists_eq_left']
  exact @mem_expected_iff_next? reading ⟨terminal, [], 0⟩

/-- **The kinds of token that are expected**, in the order of all kinds. -/
theorem expected_eq (h : after? tokens = some reading) : reading.expected =
    Terminal.all.filter fun terminal => Viable (kinds tokens ++ [terminal]) := by
  have hordered : Terminal.all.filter (· ∈ reading.expected) = reading.expected := by
    cases reading <;> rfl
  rw [← hordered]
  exact List.filter_congr fun terminal _ => by simp only [mem_expected_iff h]

example : (Terminal.all.filter fun terminal => Viable ([.identifier, .decimal] ++ [terminal])) =
    [.openParen, .comma, .hexadecimal, .decimal, .identifier, .register] := by
  decide +kernel

/-! ## The marks -/

theorem hasOperand_of_append {head operands : List Token}
    (h : after? (head ++ operands) = some reading) (hhead : IsHead (kinds head))
    (hoperands : IsOperands (kinds operands)) : reading.HasOperand := by
  have htakes := takes_head_append hhead hoperands
  rw [← kinds_append] at htakes
  obtain ⟨reading', hreading', hoperand⟩ := htakes.exists_foldlM
  cases h.symm.trans hreading'
  exact hoperand

theorem hasOperand_of_operandsTouch (h : after? tokens = some reading)
    (htouch : OperandsTouch tokens) : reading.HasOperand := by
  obtain ⟨head, front, back, rfl, hhead, hfront, hback, -⟩ := htouch
  refine hasOperand_of_append h hhead ?_
  rw [kinds_append]
  exact .gap hfront hback

/-- **What has been read is marked exactly if the last operand touches the one before it.** -/
theorem touching_iff (h : after? tokens = some reading) :
    reading.touching = true ↔ OperandsTouch tokens := by
  have htraces := (traces_of_after? h).1
  cases reading with
  | operand =>
    obtain ⟨back, hbody, hback⟩ := htraces
    exact hbody.touches_iff hback
  | number =>
    obtain ⟨back, terminal, hbody, hnumeric, hback⟩ := htraces
    exact hbody.touches_iff (hback ▸ .number hnumeric)
  | start | name | labelled | mnemonic | offset | base | comma =>
    exact iff_of_false nofun fun htouch => hasOperand_of_operandsTouch h htouch

end Reading
end Mips
