import Mathlib.Data.List.Induction
import Mips.Proofs.Source.Derivation
import Mips.Proofs.Source.Soundness

/-!
# What has been read, in terms of the tokens

`Reading.after?` takes the tokens off a line by their kinds alone.  What it arrives at says
what the tokens are (`Reading.traces_of_after?`): how they are divided into what stands in
front of the operands, the operands before the last one, and the last one.  The two marks
on what has been read tell which of these parts touch: the last operand the one before it
(`Body.Traces.touches_iff`), and the operands the mnemonic (`Body.Completed.tight_iff`).
-/
namespace Mips

/-- The kinds of some tokens. -/
def kinds (tokens : List Token) : List Terminal :=
  tokens.map Token.terminal

theorem kinds_append (front back : List Token) :
    kinds (front ++ back) = kinds front ++ kinds back :=
  List.map_append

/-- No byte is between the last token of `front` and the first token of `back`. -/
def Abut (front back : List Token) : Prop :=
  ∃ a b, front.getLast? = some a ∧ back.head? = some b ∧ b.start = a.stop

section
variable {front back : List Token} {token last : Token}

theorem abut_singleton_iff (h : front.getLast? = some last) :
    Abut front [token] ↔ token.start = last.stop := by
  simp [Abut, h]

theorem abut_append_iff (hne : back ≠ []) (more : List Token) :
    Abut front (back ++ more) ↔ Abut front back := by
  unfold Abut
  rw [List.head?_append_of_ne_nil _ hne]

end

open Grammar

/-! ## Operands that touch -/

/-- The tokens end with a complete operand that touches the one before it. -/
def OperandsTouch (tokens : List Token) : Prop :=
  ∃ head front back, tokens = head ++ (front ++ back) ∧ IsHead (kinds head) ∧
    IsOperands (kinds front) ∧ IsOperand (kinds back) ∧ Abut front back

section
variable {front front' back back' : List Token}

theorem ne_nil_of_isOperands (h : IsOperands (kinds front)) : front ≠ [] := by
  rintro rfl
  obtain ⟨t, rest, ht, -⟩ := h.exists_cons
  cases ht

/-- Sequences of tokens are divided as their kinds are. -/
theorem append_inj_of_kinds (h : front ++ back = front' ++ back')
    (hlength : (kinds front).length = (kinds front').length) : front = front' ∧ back = back' :=
  List.append_inj h (by simpa [kinds] using hlength)

theorem append_inj_of_isHead (hfront : IsHead (kinds front)) (hfront' : IsHead (kinds front'))
    (hback : IsOperands (kinds back)) (hback' : IsOperands (kinds back'))
    (h : front ++ back = front' ++ back') : front = front' ∧ back = back' := by
  have hkinds := congrArg kinds h
  rw [kinds_append, kinds_append] at hkinds
  exact append_inj_of_kinds h (hfront.length_eq hfront' hback hback' hkinds)

theorem append_inj_of_isOperand (hback : IsOperand (kinds back))
    (hback' : IsOperand (kinds back')) (h : front ++ back = front' ++ back') :
    front = front' ∧ back = back' := by
  have hkinds := congrArg kinds h
  rw [kinds_append, kinds_append] at hkinds
  have hlength := hback.length_eq hback' hkinds
  refine append_inj_of_kinds h ?_
  have htotal := congrArg List.length hkinds
  rw [List.length_append, List.length_append] at htotal
  omega

end

/-! ## What has been read -/

/-- How the last operand, of which the tokens `back` have been read, comes behind `front`. -/
inductive Follows (touches : Bool) (back : List Token) : List Token → Prop
  | first (htouches : touches = false) : Follows touches back []
  | comma {front : List Token} {comma : Token} (hfront : IsOperands (kinds front))
      (hcomma : comma.terminal = .comma) (htouches : touches = false) :
      Follows touches back (front ++ [comma])
  | gap {front : List Token} (hfront : IsOperands (kinds front))
      (htouches : touches = true ↔ Abut front back) : Follows touches back front

/-- With the last operand all operands are complete. -/
theorem Follows.isOperands {touches : Bool} {front back : List Token}
    (h : Follows touches back front) (hback : IsOperand (kinds back)) :
    IsOperands (kinds (front ++ back)) := by
  cases h with
  | first => exact .single hback
  | @comma front comma hfront hcomma =>
    have hkinds : kinds (front ++ [comma] ++ back) = kinds front ++ .comma :: kinds back := by
      simp [kinds, hcomma]
    rw [hkinds]
    exact .comma hfront hback
  | gap hfront =>
    rw [kinds_append]
    exact .gap hfront hback

/-- The tokens are a statement, of whose last operand the tokens `back` have been read. -/
def Body.Traces (body : Body) (tokens back : List Token) : Prop :=
  back ≠ [] ∧ ∃ head front, tokens = head ++ (front ++ back) ∧ IsHead (kinds head) ∧
    Follows body.touches back front ∧ (body.tight = true ↔ Abut head (front ++ back))

/-- The tokens are a statement with complete operands. -/
def Body.Completed (body : Body) (tokens : List Token) : Prop :=
  ∃ head operands, tokens = head ++ operands ∧ IsHead (kinds head) ∧
    IsOperands (kinds operands) ∧ (body.tight = true ↔ Abut head operands)

section
variable {body : Body} {tokens back : List Token}

/-- The last operand goes on. -/
theorem Body.Traces.snoc (h : body.Traces tokens back) (token : Token) :
    body.Traces (tokens ++ [token]) (back ++ [token]) := by
  obtain ⟨hne, head, front, rfl, hhead, hfollows, htight⟩ := h
  refine ⟨by simp, head, front, by simp, hhead, ?_, ?_⟩
  · cases hfollows with
    | first htouches => exact .first htouches
    | comma hfront hcomma htouches => exact .comma hfront hcomma htouches
    | gap hfront htouches => exact .gap hfront (htouches.trans (abut_append_iff hne _).symm)
  · have hne' : front ++ back ≠ [] := List.append_ne_nil_of_right_ne_nil _ hne
    rw [htight, ← List.append_assoc, abut_append_iff hne']

theorem Body.Traces.completed (h : body.Traces tokens back) (hback : IsOperand (kinds back)) :
    body.Completed tokens := by
  obtain ⟨-, head, front, rfl, hhead, hfollows, htight⟩ := h
  exact ⟨head, front ++ back, rfl, hhead, hfollows.isOperands hback, htight⟩

theorem Body.Completed.isLine (h : body.Completed tokens) : IsLine (kinds tokens) := by
  obtain ⟨head, operands, rfl, hhead, hoperands, -⟩ := h
  rw [kinds_append]
  exact hhead.isLine_append hoperands

/-- The mark on the last operand tells whether it touches the one before it. -/
theorem Body.Traces.touches_iff (h : body.Traces tokens back) (hback : IsOperand (kinds back)) :
    body.touches = true ↔ OperandsTouch tokens := by
  obtain ⟨-, head, front, rfl, hhead, hfollows, -⟩ := h
  constructor
  · intro htouches
    cases hfollows with
    | first hfalse | comma _ _ hfalse =>
      rw [htouches] at hfalse
      cases hfalse
    | gap hfront hiff => exact ⟨head, front, back, rfl, hhead, hfront, hback, hiff.mp htouches⟩
  · rintro ⟨head', front', back', heq, hhead', hfront', hback', habut⟩
    have hoperands := hfollows.isOperands hback
    have hoperands' : IsOperands (kinds (front' ++ back')) := by
      rw [kinds_append]
      exact .gap hfront' hback'
    obtain ⟨rfl, hrest⟩ := append_inj_of_isHead hhead hhead' hoperands hoperands' heq
    obtain ⟨rfl, rfl⟩ := append_inj_of_isOperand hback hback' hrest
    cases hfollows with
    | first => exact absurd rfl (ne_nil_of_isOperands hfront')
    | @comma front comma _ hcomma =>
      -- operands do not end with a comma
      have hends : kinds (front ++ [comma]) = kinds front ++ [.comma] := by
        rw [kinds_append, ← hcomma]
        rfl
      exact absurd hends hfront'.ne_append_comma
    | gap _ hiff => exact hiff.mpr habut

end

/-! ## What has been read -/

namespace Reading

/-- What the tokens are that have been read. -/
def Traces (tokens : List Token) : Reading → Prop
  | start => tokens = []
  | name token => kinds tokens = [.identifier] ∧ tokens.getLast? = some token
  | labelled _ => kinds tokens = [.identifier, .colon]
  | mnemonic _ token =>
    kinds tokens = [.identifier, .colon, .identifier] ∧ tokens.getLast? = some token
  | operand body _ _ => ∃ back, body.Traces tokens back ∧ IsOperand (kinds back)
  | number body _ _ => ∃ back terminal, body.Traces tokens back ∧ terminal.IsNumeric ∧
      kinds back = [terminal]
  | offset body _ => ∃ back terminal, body.Traces tokens back ∧ terminal.IsNumeric ∧
      kinds back = [terminal, .openParen]
  | base body _ _ => ∃ back terminal, body.Traces tokens back ∧ terminal.IsNumeric ∧
      kinds back = [terminal, .openParen, .register]
  | comma body => ∃ before comma, tokens = before ++ [comma] ∧ comma.terminal = .comma ∧
      body.Completed before

variable {body : Body} {reading next : Reading} {tokens : List Token} {token : Token}

/-- A token that starts the last operand. -/
theorem traces_of_startOperand? (h : startOperand? body token = some next)
    (hbody : body.Traces tokens [token]) : next.Traces tokens := by
  have hkinds : kinds [token] = [token.terminal] := rfl
  unfold startOperand? at h
  split at h
  · next hterminal =>
    cases h
    exact ⟨[token], _, hbody, .inr hterminal, hkinds⟩
  · next hterminal =>
    cases h
    exact ⟨[token], _, hbody, .inl hterminal, hkinds⟩
  · next hterminal =>
    cases h
    exact ⟨[token], hbody, by rw [hkinds, hterminal]; exact .label⟩
  · next hterminal =>
    cases h
    exact ⟨[token], hbody, by rw [hkinds, hterminal]; exact .register⟩
  · cases h

/-- A token that starts the first operand. -/
theorem traces_of_firstOperand? {label? : Option String} {head : Token}
    (h : firstOperand? label? head token = some next) (hhead : IsHead (kinds tokens))
    (hlast : tokens.getLast? = some head) : next.Traces (tokens ++ [token]) := by
  refine traces_of_startOperand? h ⟨List.cons_ne_nil _ _, tokens, [], rfl, hhead, .first rfl, ?_⟩
  rw [List.nil_append, abut_singleton_iff hlast]
  exact beq_iff_eq

/-- A token behind complete operands. -/
theorem traces_of_afterOperand? {last : Operand} {stop : Nat} (hbody : body.Completed tokens)
    (hstop : ∀ token ∈ tokens.getLast?, token.stop = stop)
    (h : afterOperand? body last stop token = some next) : next.Traces (tokens ++ [token]) := by
  unfold afterOperand? at h
  split at h
  · next hcomma =>
    cases h
    exact ⟨tokens, token, rfl, hcomma, hbody⟩
  · obtain ⟨head, operands, rfl, hhead, hoperands, htight⟩ := hbody
    have hne := ne_nil_of_isOperands hoperands
    have hlast := List.getLast?_eq_some_getLast hne
    have hlast' : (head ++ operands).getLast? = some (operands.getLast hne) := by
      rw [List.getLast?_append, hlast]
      rfl
    refine traces_of_startOperand? h ⟨List.cons_ne_nil _ _, head, operands, by simp, hhead, ?_, ?_⟩
    · refine .gap hoperands ?_
      rw [abut_singleton_iff hlast, hstop _ hlast']
      exact beq_iff_eq
    · rw [abut_append_iff hne]
      exact htight

/-- **A token is traced as it is taken.** -/
theorem traces_of_next? (htraces : reading.Traces tokens)
    (hstop : ∀ last ∈ tokens.getLast?, reading.StopsAt last.stop)
    (h : reading.next? token = some next) : next.Traces (tokens ++ [token]) := by
  have hkinds : ∀ {front ts terminal}, kinds front = ts → token.terminal = terminal →
      kinds (front ++ [token]) = ts ++ [terminal] := by
    rintro front _ _ rfl rfl
    exact kinds_append front [token]
  -- a token goes on with the last operand, or begins another part of the line
  cases reading with
  | start =>
    cases htraces
    simp only [next?, Option.ite_none_right_eq_some, Option.some.injEq] at h
    obtain ⟨hterminal, rfl⟩ := h
    exact ⟨congrArg (fun t => [t]) hterminal, rfl⟩
  | name head =>
    obtain ⟨hhead, hlast⟩ := htraces
    simp only [next?] at h
    split at h
    · next hterminal =>
      cases h
      exact hkinds hhead hterminal
    · exact traces_of_firstOperand? h (hhead ▸ .mnemonic) hlast
  | labelled label =>
    simp only [next?, Option.ite_none_right_eq_some, Option.some.injEq] at h
    obtain ⟨hterminal, rfl⟩ := h
    exact ⟨hkinds htraces hterminal, List.getLast?_concat⟩
  | mnemonic label head =>
    obtain ⟨hhead, hlast⟩ := htraces
    exact traces_of_firstOperand? h (hhead ▸ .labelled) hlast
  | operand body last stop =>
    obtain ⟨back, hbody, hback⟩ := htraces
    exact traces_of_afterOperand? (hbody.completed hback) (fun t ht => (hstop t ht).symm) h
  | number body text stop =>
    obtain ⟨back, terminal, hbody, hnumeric, hback⟩ := htraces
    simp only [next?] at h
    split at h
    · next hterminal =>
      cases h
      exact ⟨_, terminal, hbody.snoc token, hnumeric, hkinds hback hterminal⟩
    · have hcompleted := hbody.completed (by rw [hback]; exact .number hnumeric)
      exact traces_of_afterOperand? hcompleted (fun t ht => (hstop t ht).symm) h
  | offset body text =>
    obtain ⟨back, terminal, hbody, hnumeric, hback⟩ := htraces
    simp only [next?, Option.ite_none_right_eq_some, Option.some.injEq] at h
    obtain ⟨hterminal, rfl⟩ := h
    exact ⟨_, terminal, hbody.snoc token, hnumeric, hkinds hback hterminal⟩
  | base body text register =>
    obtain ⟨back, terminal, hbody, hnumeric, hback⟩ := htraces
    simp only [next?, Option.ite_none_right_eq_some, Option.some.injEq] at h
    obtain ⟨hterminal, rfl⟩ := h
    refine ⟨_, hbody.snoc token, ?_⟩
    rw [hkinds hback hterminal]
    exact .offset hnumeric
  | comma body =>
    obtain ⟨before, comma, rfl, hcomma, head, operands, rfl, hhead, hoperands, htight⟩ := htraces
    refine traces_of_startOperand? h ⟨List.cons_ne_nil _ _, head, operands ++ [comma], by simp,
      hhead, .comma hoperands hcomma rfl, ?_⟩
    have hne := ne_nil_of_isOperands hoperands
    rw [List.append_assoc, abut_append_iff hne]
    exact htight

/-! ## The run over some tokens -/

/-- What has been read after some tokens, if each of them can stand where it does. -/
def after? (tokens : List Token) : Option Reading :=
  tokens.foldlM next? start

theorem after?_concat : after? (tokens ++ [token]) = some next ↔
    ∃ reading, after? tokens = some reading ∧ reading.next? token = some next := by
  simp [after?, List.foldlM_append, Option.bind_eq_some_iff]

/-- **What has been read tells what the tokens are.** -/
theorem traces_of_after? (h : after? tokens = some reading) :
    reading.Traces tokens ∧ ∀ last ∈ tokens.getLast?, reading.StopsAt last.stop := by
  induction tokens using List.reverseRecOn generalizing reading with
  | nil =>
    cases h
    exact ⟨rfl, nofun⟩
  | append_singleton tokens token ih =>
    obtain ⟨before, hbefore, hnext⟩ := after?_concat.mp h
    obtain ⟨htraces, hstop⟩ := ih hbefore
    refine ⟨traces_of_next? htraces hstop hnext, fun last hlast => ?_⟩
    rw [List.getLast?_concat] at hlast
    cases hlast
    exact stopsAt_of_next? hnext

end Reading
end Mips
