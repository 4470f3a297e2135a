import Mips.Proofs.Source.Scanning

/-!
# Nothing of a line is lost

Reading the tokens of a line accounts for every byte of it.  The bytes of a token are its text,
the bytes between two tokens are blanks, and so are those in front of the first token and behind
the last one, up to the end of the line or to the place where no token can be read
(`Tokens.blankBetween_of_mem_gaps`).

That place is a property of the line alone.  Wherever a line is stuck behind some tokens and
blanks, whichever they are and whether they are longest matches or not, reading it is stuck as
well: from the second character on, every character of a token begins a token itself, so no
other way to divide the line gets past a place at which it is stuck (`Tokenized.not_stuck`).

Main statement: `Tokens.lossless_and_maximal`.
-/
namespace Mips

/-! ## Bytes -/

namespace Text

theorem size_utf8Encode (cs : List Char) : cs.utf8Encode.size = byteSize cs := by
  induction cs with
  | nil => rfl
  | cons c cs ih =>
    rw [List.utf8Encode_cons, ByteArray.size_append, ih]
    simp [List.utf8Encode, byteSize]

/-- `text` stands in `cs` from byte `start` up to byte `stop` of the UTF-8 form. -/
def Slice (cs : List Char) (start stop : Nat) (text : List Char) : Prop :=
  ∃ before after, cs = before ++ (text ++ after) ∧ before.utf8Encode.size = start ∧
    (before ++ text).utf8Encode.size = stop

/-- From byte `start` up to byte `stop` there are only blanks. -/
def BlankBetween (cs : List Char) (start stop : Nat) : Prop :=
  ∃ blanks, Blanks blanks ∧ Slice cs start stop blanks

theorem slice_append (before text after : List Char) :
    Slice (before ++ (text ++ after)) (byteSize before) (byteSize before + byteSize text) text :=
  ⟨before, after, rfl, size_utf8Encode before, by rw [size_utf8Encode, byteSize_append]⟩

theorem slice_append_right (before text : List Char) :
    Slice (before ++ text) (byteSize before) (byteSize (before ++ text)) text := by
  have h := slice_append before text []
  rwa [List.append_nil, ← byteSize_append] at h

end Text

/-! ## Where a line is stuck -/

/-- Every character of a token but the first is one of those that names are made of. -/
theorem Terminal.Matches.isNamePart_of_mem_tail {terminal : Terminal} {text : List Char}
    (h : terminal.Matches text) : ∀ c ∈ text.tail, Text.isNamePart c := by
  cases h with
  | openParen | closeParen | comma | colon => simp
  | register hne hname => exact fun c hc => Text.isNamePart_of_isAlphanumeric (hname c hc)
  | identifier hfirst hrest => exact hrest
  | decimal hsign hne hdigits =>
    have hparts := fun c hc => Text.isNamePart_of_isDigit (hdigits c hc)
    rcases hsign with rfl | rfl
    · exact fun c hc => hparts c (List.mem_of_mem_tail hc)
    · exact hparts
  | @hexadecimal sign digits x hsign hx hne hdigits =>
    have hparts : ∀ c ∈ x :: digits, Text.isNamePart c :=
      List.forall_mem_cons.mpr ⟨Text.isNamePart_of_eq_x hx, fun c hc =>
        Text.isNamePart_of_isHexDigit (hdigits c hc)⟩
    rcases hsign with rfl | rfl
    · exact hparts
    · exact List.forall_mem_cons.mpr ⟨by decide, hparts⟩

/-- A character that names are made of is a token on its own. -/
theorem Text.exists_matches_singleton {c : Char} (h : isNamePart c) :
    ∃ terminal : Terminal, terminal.Matches [c] := by
  rcases Bool.or_eq_true_iff.mp h with hstart | hdigit
  · exact ⟨.identifier, .identifier hstart (by simp)⟩
  · have hdigits : ∀ d ∈ [c], isDigit d := by simpa using hdigit
    exact ⟨.decimal, .decimal (.inl rfl) (List.cons_ne_nil _ _) hdigits⟩

namespace Tokens

theorem not_stuck_of_matches {terminal : Terminal} {text : List Char}
    (h : terminal.Matches text) (rest : List Char) : ¬ Stuck (text ++ rest) := by
  rintro ⟨c, cs, hcs, -, hnone⟩
  exact hnone terminal text h ⟨rest, hcs⟩

theorem not_stuck_of_isNamePart {c : Char} (h : Text.isNamePart c) (rest : List Char) :
    ¬ Stuck (c :: rest) := by
  obtain ⟨terminal, hmatches⟩ := Text.exists_matches_singleton h
  exact not_stuck_of_matches hmatches rest

/-- **Among tokens and blanks nothing is stuck**, also in the middle of a token. -/
theorem Tokenized.not_stuck {cs back : List Char} (h : Tokenized cs) (front : List Char)
    (hcs : cs = front ++ back) (hne : back ≠ []) (rest : List Char) : ¬ Stuck (back ++ rest) := by
  induction h generalizing front with
  | nil => exact absurd (List.append_eq_nil_iff.mp hcs.symm).2 hne
  | @blanks blanks behind hblanks hbehind ih =>
    rcases List.append_eq_append_iff.mp hcs with ⟨more, rfl, rfl⟩ | ⟨more, rfl, rfl⟩
    · exact ih _ rfl
    · cases more with
      | nil => exact ih [] rfl
      | cons c more =>
        rintro ⟨_, _, ⟨⟩, hc, -⟩
        exact hc (hblanks c (by simp))
  | @token terminal text behind htext hbehind ih =>
    rcases List.append_eq_append_iff.mp hcs with ⟨more, rfl, rfl⟩ | ⟨more, rfl, rfl⟩
    · exact ih _ rfl
    · cases more with
      | nil => exact ih [] rfl
      | cons c more =>
        cases front with
        | nil =>
          rw [List.append_assoc]
          exact not_stuck_of_matches htext _
        | cons d front => exact not_stuck_of_isNamePart (htext.isNamePart_of_mem_tail c (by simp)) _

variable {place : Nat} {cs : List Char} {tokens : Tokens}

/-- Tokens and blanks do not reach beyond a place where the line is stuck. -/
theorem Tokenized.prefix_of_stuck {before after before' after' : List Char}
    (h : Tokenized before) (hcs : before ++ after = before' ++ after') (hstuck : Stuck after') :
    before <+: before' := by
  rcases List.append_eq_append_iff.mp hcs with ⟨more, rfl, -⟩ | ⟨more, rfl, rfl⟩
  · exact List.prefix_append _ _
  · cases more with
    | nil => simp
    | cons c more => exact absurd hstuck (h.not_stuck _ rfl (by simp) after)

/-- **Reading fails exactly where a line is stuck** behind tokens and blanks. -/
theorem invalid?_eq_some_iff : (ofLine cs).invalid? = some place ↔
    ∃ before after, cs = before ++ after ∧ Text.byteSize before = place ∧
      Tokenized before ∧ Stuck after := by
  have hscan : Scan 0 cs (ofLine cs) := scan_iff.mpr rfl
  obtain ⟨before, after, hcs, hbefore, hstop⟩ := hscan.exists_stop
  rw [Nat.zero_add] at hstop
  constructor
  · intro hinvalid
    rcases hstop with ⟨hnone, -⟩ | ⟨hsome, hstuck⟩
    · cases hinvalid.symm.trans hnone
    · exact ⟨before, after, hcs, Option.some.inj (hsome.symm.trans hinvalid), hbefore, hstuck⟩
  · rintro ⟨before', after', hcs', rfl, hbefore', hstuck'⟩
    have hle := hbefore.prefix_of_stuck (hcs.symm.trans hcs') hstuck'
    rcases hstop with ⟨-, rfl⟩ | ⟨hsome, hstuck⟩
    · -- all of the line is tokens and blanks, so it is stuck nowhere
      obtain ⟨c, rest, rfl, -⟩ := hstuck'
      have hlength := congrArg List.length (hcs.symm.trans hcs')
      have hshort := hle.length_le
      simp at hlength
      omega
    · have hge := hbefore'.prefix_of_stuck (hcs'.symm.trans hcs) hstuck
      rw [hsome, hle.eq_of_length_le hge.length_le]

/-! ## Spans and gaps -/

/-- The places between which no token is read: in front of, between and behind `tokens`, from
`place` up to `stop`. -/
def gaps (place stop : Nat) : List Token → List (Nat × Nat)
  | [] => [(place, stop)]
  | token :: rest => (place, token.start) :: gaps token.stop stop rest

/-- **There are only blanks in the gaps.** -/
theorem Scan.blankBetween_of_mem_gaps (h : Scan place cs tokens) (front : List Char)
    (hplace : Text.byteSize front = place) : ∀ gap ∈ gaps place
      (tokens.invalid?.getD (Text.byteSize (front ++ cs))) tokens.list,
      Text.BlankBetween (front ++ cs) gap.1 gap.2 := by
  induction h generalizing front with
  | @finish place blanks hblanks =>
    subst hplace
    rintro gap (_ | ⟨_, ⟨⟩⟩)
    exact ⟨blanks, hblanks, Text.slice_append_right front blanks⟩
  | @invalid place blanks rest c hblanks hc hnone =>
    subst hplace
    rintro gap (_ | ⟨_, ⟨⟩⟩)
    exact ⟨blanks, hblanks, Text.slice_append front blanks _⟩
  | @token place blanks text rest terminal tokens hblanks htext hlongest hrest ih =>
    subst hplace
    have hbehind := ih (front ++ (blanks ++ text)) (by
      rw [Text.byteSize_append, Text.byteSize_append, Nat.add_assoc])
    simp only [List.append_assoc] at hbehind
    refine List.forall_mem_cons.mpr ⟨?_, hbehind⟩
    exact ⟨blanks, hblanks, Text.slice_append front blanks _⟩

theorem Scan.le_start (h : Scan place cs tokens) {token : Token} (htoken : token ∈ tokens.list) :
    place ≤ token.start := by
  obtain ⟨before, after, -, hstart⟩ := h.exists_append htoken
  omega

theorem start_lt_stop {token : Token} (h : token.terminal.Matches token.text) :
    token.start < token.stop :=
  Nat.lt_add_of_pos_right (Text.byteSize_pos h.ne_nil)

/-- Every token ends before the next ones start. -/
theorem Scan.pairwise (h : Scan place cs tokens) :
    tokens.list.Pairwise fun a b => a.start < b.start ∧ a.stop ≤ b.start := by
  induction h with
  | finish | invalid => exact .nil
  | @token place blanks text rest terminal tokens hblanks htext hlongest hrest ih =>
    refine List.pairwise_cons.mpr ⟨fun token htoken => ?_, ih⟩
    have hle := hrest.le_start htoken
    exact ⟨Nat.lt_of_lt_of_le (start_lt_stop htext) hle, hle⟩

/-- **Tokenisation is lossless and maximal.**  The tokens of a line that come before its end, or
before the place where it cannot be read any further, have spans of at least one byte that
follow one another without overlapping.  Each token is the text of the line in its span, and
whatever is left between these spans, in front of them and behind them is blank.  Each token is
the longest text of any kind of token at its place, and it is a text of one kind only.  The line
cannot be read any further at a place exactly if there are only tokens and blanks in front of
it, and neither a blank nor a token begins there. -/
theorem lossless_and_maximal (cs : List Char) :
    (ofLine cs).list.Pairwise (fun a b => a.start < b.start ∧ a.stop ≤ b.start) ∧
    (∀ token ∈ (ofLine cs).list, token.start < token.stop ∧
      Text.Slice cs token.start token.stop token.text) ∧
    (∀ gap ∈ gaps 0 ((ofLine cs).invalid?.getD cs.utf8Encode.size) (ofLine cs).list,
      Text.BlankBetween cs gap.1 gap.2) ∧
    (∀ token ∈ (ofLine cs).list, ∃ rest, Text.Slice cs token.start cs.utf8Encode.size rest ∧
      token.text <+: rest ∧
      (∀ (terminal : Terminal) (text : List Char), terminal.Matches text → text <+: rest →
        text.length ≤ token.text.length) ∧
      ∀ terminal : Terminal, terminal.Matches token.text ↔ terminal = token.terminal) ∧
    ∀ place, (ofLine cs).invalid? = some place ↔
      ∃ before after, cs = before ++ after ∧ before.utf8Encode.size = place ∧
        Tokenized before ∧ Stuck after := by
  have hscan : Scan 0 cs (ofLine cs) := scan_iff.mpr rfl
  simp only [Text.size_utf8Encode]
  refine ⟨hscan.pairwise, fun token htoken => ?_, hscan.blankBetween_of_mem_gaps [] rfl,
    fun token htoken => ?_, fun place => invalid?_eq_some_iff⟩
  · obtain ⟨before, after, rfl, hstart, hmatches, -⟩ := hscan.exists_longest htoken
    rw [Nat.zero_add] at hstart
    refine ⟨start_lt_stop hmatches, ?_⟩
    unfold Token.stop
    rw [hstart]
    exact Text.slice_append before token.text after
  · obtain ⟨before, after, rfl, hstart, hmatches, hlongest⟩ := hscan.exists_longest htoken
    rw [Nat.zero_add] at hstart
    refine ⟨token.text ++ after, ?_, List.prefix_append _ _, hlongest, fun terminal => ?_⟩
    · rw [hstart]
      exact Text.slice_append_right before (token.text ++ after)
    · constructor
      · exact fun h => h.unique hmatches
      · rintro rfl
        exact hmatches

example : Tokens.ofLine "lw\u3000-0x1g$".toList =
    ⟨[⟨.identifier, "lw".toList, 0⟩, ⟨.hexadecimal, "-0x1".toList, 5⟩,
      ⟨.identifier, "g".toList, 9⟩], some 10⟩ := by
  decide +kernel

end Tokens
end Mips
