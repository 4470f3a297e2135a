import Mips.Proofs.Source.LongestMatch
import Mips.Proofs.Source.RegisterText
import Mips.Source.Line

/-!
# The written language

How lines are written, without a word about how they are read: `Line.Renders` relates a
line to each of its texts.  A line has many, because blanks and commas between operands
are free within limits, and a register, unlike a name or a number, has several tokens
(`$8` and `$08`).  No blanks stand at the two ends of these texts.

What stands behind an operand of such a text is empty or begins with a delimiter
(`Operand.Tail.delimited`), so the operand ends where its last token does.
-/
namespace Mips

/-- White space of any length. -/
def Blanks (cs : List Char) : Prop :=
  ∀ c ∈ cs, Text.isBlank c

/-- What stands between two operands: a comma with any blanks around it, or blanks
alone, and then at least one. -/
inductive Separator : List Char → Prop
  | comma {before after : List Char} (hbefore : Blanks before) (hafter : Blanks after) :
      Separator (before ++ ',' :: after)
  | gap {blanks : List Char} (hne : blanks ≠ []) (hblanks : Blanks blanks) : Separator blanks

/-- A decimal or hexadecimal number. -/
def IsNumber (text : List Char) : Prop :=
  Terminal.decimal.Matches text ∨ Terminal.hexadecimal.Matches text

namespace Operand

/-- The texts of an operand. -/
inductive Renders : Operand → List Char → Prop
  | register {register : Register} {token : List Char} (hregister : register.Renders token) :
      Renders (.register register) token
  | number {text : List Char} (htext : IsNumber text) :
      Renders (.number (String.ofList text)) text
  | label {name : List Char} (hname : Terminal.identifier.Matches name) :
      Renders (.label (String.ofList name)) name
  | offset {base : Register} {text front before token after : List Char} (htext : IsNumber text)
      (hfront : Blanks front) (hbefore : Blanks before) (hbase : base.Renders token)
      (hafter : Blanks after) :
      Renders (.offset (String.ofList text) base)
        (text ++ (front ++ '(' :: (before ++ (token ++ (after ++ [')'])))))

/-- The texts of operands that stand behind another one, each with a separator in
front. -/
inductive Tail : List Operand → List Char → Prop
  | nil : Tail [] []
  | cons {operand : Operand} {operands : List Operand} {separator text rest : List Char}
      (hseparator : Separator separator) (htext : operand.Renders text)
      (hrest : Tail operands rest) : Tail (operand :: operands) (separator ++ (text ++ rest))

end Operand

/-- The texts of a statement. -/
inductive Statement.Renders : Statement → List Char → Prop
  | bare {name : List Char} (hname : Terminal.identifier.Matches name) :
      Renders ⟨String.ofList name, []⟩ name
  | operands {name gap first rest : List Char} {operand : Operand} {operands : List Operand}
      (hname : Terminal.identifier.Matches name) (hne : gap ≠ []) (hgap : Blanks gap)
      (hfirst : operand.Renders first) (hrest : Operand.Tail operands rest) :
      Renders ⟨String.ofList name, operand :: operands⟩ (name ++ (gap ++ (first ++ rest)))

/-- The texts of a line. -/
inductive Line.Renders : Line → List Char → Prop
  | label {name before : List Char} (hname : Terminal.identifier.Matches name)
      (hbefore : Blanks before) :
      Renders (.label (String.ofList name)) (name ++ (before ++ [':']))
  | statement {content : Statement} {text : List Char} (htext : content.Renders text) :
      Renders (.statement none content) text
  | labelled {name before after text : List Char} {content : Statement}
      (hname : Terminal.identifier.Matches name) (hbefore : Blanks before)
      (hafter : Blanks after) (htext : content.Renders text) :
      Renders (.statement (some (String.ofList name)) content)
        (name ++ (before ++ ':' :: (after ++ text)))

/-! ## Where operands end -/

namespace Lexeme

theorem delimited_nil : Delimited [] := by
  rintro _ ⟨⟩

theorem delimited_cons {c : Char} (hc : Text.isDelimiter c) (rest : List Char) :
    Delimited (c :: rest) := by
  rintro _ ⟨⟩
  exact hc

end Lexeme

theorem Blanks.nil : Blanks [] :=
  fun _ hc => absurd hc List.not_mem_nil

theorem Blanks.delimited_append {blanks rest : List Char} (h : Blanks blanks)
    (hrest : Lexeme.Delimited rest) : Lexeme.Delimited (blanks ++ rest) := by
  cases blanks with
  | nil => exact hrest
  | cons c blanks =>
    exact Lexeme.delimited_cons (Text.isDelimiter_of_isBlank (h c List.mem_cons_self)) _

theorem Blanks.delimited {blanks : List Char} (h : Blanks blanks) : Lexeme.Delimited blanks := by
  have happ := h.delimited_append Lexeme.delimited_nil
  rwa [List.append_nil] at happ

theorem Separator.delimited_append {separator : List Char} (h : Separator separator)
    (rest : List Char) : Lexeme.Delimited (separator ++ rest) := by
  cases h with
  | comma hbefore =>
    rw [List.append_assoc]
    exact hbefore.delimited_append (Lexeme.delimited_cons (by decide) _)
  | gap hne hblanks =>
    obtain ⟨c, blanks, rfl⟩ := List.exists_cons_of_ne_nil hne
    exact Lexeme.delimited_cons (Text.isDelimiter_of_isBlank (hblanks c List.mem_cons_self)) _

/-- Operands and blanks behind an operand begin with a delimiter, if with anything. -/
theorem Operand.Tail.delimited {operands : List Operand} {text blanks : List Char}
    (h : Operand.Tail operands text) (hblanks : Blanks blanks) :
    Lexeme.Delimited (text ++ blanks) := by
  cases h with
  | nil => exact hblanks.delimited
  | cons hseparator =>
    rw [List.append_assoc]
    exact hseparator.delimited_append _

end Mips
