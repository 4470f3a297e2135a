import Mips.Proofs.Debugger.Run
import Mips.Proofs.Text.Pieces

/-!
# To look is not to touch

A session steps, runs or resets its machine on the lines that say so (`Drives`), and all
other lines only look at it, or switch tracing.  What a driving line does to the machine,
and what it puts out apart from notices, is therefore the same if the lines before it that
do not drive are left out (`Session.observation_leaves_no_trace`).
-/
namespace Mips.Debugger

/-! ## Input lines -/

/-- The words of an input line. -/
def inputWords (line : String) : List String :=
  ((line.toList.splitOnP Text.isBlank).filter (· ≠ [])).map String.ofList

/-- The line asks for the machine to go on or to start over. -/
def Drives (line : String) : Prop :=
  inputWords line ∈ [["step"], ["s"], ["run"], ["r"], ["reset"]]

instance : DecidablePred Drives := fun line =>
  inferInstanceAs (Decidable (inputWords line ∈ [["step"], ["s"], ["run"], ["r"], ["reset"]]))

namespace Command

variable {line : String} {words : List String}

theorem parse_eq (line : String) : parse line = ofWords (inputWords line) := by
  rw [parse, Text.words_eq_splitOnP]
  rfl

theorem drives_iff :
    Drives line ↔ parse line = .step ∨ parse line = .run ∨ parse line = .reset := by
  unfold Drives
  rw [parse_eq]
  generalize inputWords line = words
  unfold ofWords
  split <;> simp_all

theorem parse_eq_exit_iff : parse line = .exit ↔ inputWords line = ["exit"] := by
  rw [parse_eq]
  generalize inputWords line = words
  unfold ofWords
  split <;> simp_all

theorem parse_eq_trace_iff {enabled : Bool} : parse line = .trace enabled ↔
    inputWords line = ["trace", if enabled then "on" else "off"] := by
  rw [parse_eq]
  generalize inputWords line = words
  unfold ofWords
  split <;> cases enabled <;> simp_all

end Command

/-! ## What tracing leaves alone -/

/-- A piece of output is text for the standard error stream. -/
def Output.isNotice : Output → Bool
  | .err _ => true
  | .out _ | .log _ => false

/-- The output apart from notices: the text for the standard output and the log records. -/
def withoutNotices (outputs : List Output) : List Output :=
  outputs.filter (!·.isNotice)

theorem withoutNotices_append (a b : List Output) :
    withoutNotices (a ++ b) = withoutNotices a ++ withoutNotices b :=
  List.filter_append a b

/-- Two replies do the same to the machine, put out the same apart from notices, and both
go on or both do not. -/
structure Reply.Agrees (reply reply' : Reply) : Prop where
  machine : reply.session.machine = reply'.session.machine
  output : withoutNotices reply.output.toList = withoutNotices reply'.output.toList
  continues : reply.continues = reply'.continues

namespace Session

variable {s s' : Session} {line : String} {lines : List String}

/-- A step of two sessions with the same machine: all that the instruction shown before it
adds is a notice. -/
theorem step_agrees (h : s.machine = s'.machine) :
    s.step.1.machine = s'.step.1.machine ∧ s.step.2.1 = s'.step.2.1 ∧
      withoutNotices s.step.2.2 = withoutNotices s'.step.2.2 := by
  have htraced : ∀ (tracing : Bool) (m : Machine),
      withoutNotices (if tracing then [notice (View.traceLine m)] else []) = [] := by
    intro tracing m
    cases tracing <;> rfl
  obtain ⟨m, tracing⟩ := s
  obtain ⟨_, tracing'⟩ := s'
  cases h
  cases hlog : m.stepWithLog threshold with
  | mk m' rest =>
    obtain ⟨fault?, records⟩ := rest
    simp only [step, hlog]
    cases fault? with
    | none => simp only [withoutNotices_append, htraced, and_self]
    | some fault => simp only [withoutNotices_append, htraced, and_self]

theorem runFor_agrees (limit : Nat) (h : s.machine = s'.machine) {output output' : Array Output}
    (houtput : withoutNotices output.toList = withoutNotices output'.toList) :
    (runFor limit s output).1.machine = (runFor limit s' output').1.machine ∧
      withoutNotices (runFor limit s output).2.toList =
        withoutNotices (runFor limit s' output').2.toList := by
  induction limit generalizing s s' output output' with
  | zero =>
    unfold runFor
    rw [h]
    split
    · exact ⟨h, houtput⟩
    · simp only [Array.toList_push, withoutNotices_append, houtput, and_true]
      exact h
  | succ limit ih =>
    obtain ⟨hmachine, hsucceeded, hnew⟩ := step_agrees h
    have hall : withoutNotices (output ++ s.step.2.2).toList =
        withoutNotices (output' ++ s'.step.2.2).toList := by
      simp only [Array.toList_appendList, withoutNotices_append, houtput, hnew]
    unfold runFor
    rw [h]
    split
    · exact ⟨h, houtput⟩
    · dsimp only
      rw [hsucceeded, hmachine]
      split
      · exact ih hmachine hall
      · exact ⟨hmachine, hall⟩

/-- What a command does to the machine and puts out apart from notices is a matter of the
machine alone. -/
theorem perform_agrees (h : s.machine = s'.machine) (command : Command) :
    (s.perform command).Agrees (s'.perform command) := by
  obtain ⟨m, tracing⟩ := s
  obtain ⟨_, tracing'⟩ := s'
  cases h
  have hsame : (⟨m, tracing⟩ : Session).machine = (⟨m, tracing'⟩ : Session).machine := rfl
  cases command with
  | step =>
    obtain ⟨hmachine, -, houtput⟩ := step_agrees hsame
    unfold perform
    dsimp only
    split
    · exact ⟨rfl, rfl, rfl⟩
    · exact ⟨hmachine, houtput, rfl⟩
  | run =>
    have hempty : withoutNotices (#[] : Array Output).toList = withoutNotices #[].toList := rfl
    obtain ⟨hmachine, houtput⟩ := runFor_agrees runLimit hsame hempty
    exact ⟨hmachine, houtput, rfl⟩
  | trace enabled => cases enabled <;> exact ⟨rfl, rfl, rfl⟩
  | nothing | reset | registers | memory | text | pc | help | exit | unknown =>
    exact ⟨rfl, rfl, rfl⟩

/-! ## What a single line does -/

theorem performLine_agrees (h : s.machine = s'.machine) (line : String) :
    (s.performLine line).Agrees (s'.performLine line) :=
  perform_agrees h _

theorem machine_performLine (h : ¬ Drives line) :
    (s.performLine line).session.machine = s.machine := by
  unfold performLine
  cases hcommand : Command.parse line with
  | step => exact absurd (Command.drives_iff.mpr (.inl hcommand)) h
  | run => exact absurd (Command.drives_iff.mpr (.inr (.inl hcommand))) h
  | reset => exact absurd (Command.drives_iff.mpr (.inr (.inr hcommand))) h
  | trace enabled => cases enabled <;> rfl
  | nothing | registers | memory | text | pc | help | exit | unknown => rfl

theorem tracing_perform_run : (s.perform .run).session.tracing = s.tracing := by
  obtain ⟨k, -, hrun⟩ := runFor_eq_steps s runLimit #[]
  unfold perform
  rw [hrun, afterSteps_eq]

theorem tracing_performLine : (s.performLine line).session.tracing =
    if inputWords line = ["trace", "on"] then true
    else if inputWords line = ["trace", "off"] then false
    else s.tracing := by
  have hon : Command.parse line = .trace true ↔ inputWords line = ["trace", "on"] :=
    Command.parse_eq_trace_iff
  have hoff : Command.parse line = .trace false ↔ inputWords line = ["trace", "off"] :=
    Command.parse_eq_trace_iff
  simp only [← hon, ← hoff]
  unfold performLine
  cases Command.parse line with
  | step =>
    rw [session_perform_step]
    rfl
  | run =>
    rw [tracing_perform_run]
    rfl
  | trace enabled => cases enabled <;> rfl
  | nothing | reset | registers | memory | text | pc | help | exit | unknown => rfl

theorem continues_performLine :
    (s.performLine line).continues = false ↔ inputWords line = ["exit"] := by
  rw [← Command.parse_eq_exit_iff]
  unfold performLine
  cases Command.parse line with
  | step =>
    simp only [perform]
    split <;> simp
  | trace enabled => cases enabled <;> simp [perform]
  | run | nothing | reset | registers | memory | text | pc | help | exit | unknown =>
    simp [perform]

/-! ## Lines in a row -/

/-- The replies to some lines, up to the first that ends the session. -/
def replies (s : Session) : List String → List Reply
  | [] => []
  | line :: rest =>
    let reply := s.performLine line
    reply :: if reply.continues then reply.session.replies rest else []

/-- The session after some lines, if none of them ends it. -/
def afterLines (s : Session) (lines : List String) : Session :=
  s.after (lines.map Command.parse)

theorem afterLines_cons (rest : List String) :
    s.afterLines (line :: rest) = (s.performLine line).session.afterLines rest :=
  rfl

/-- A line has a reply if no line before it ends the session, and then the session that
replies is the one after these lines. -/
theorem getElem?_replies {i : Nat} {reply : Reply} : (s.replies lines)[i]? = some reply ↔
    (∀ line ∈ lines.take i, inputWords line ≠ ["exit"]) ∧
      ∃ line, lines[i]? = some line ∧ reply = (s.afterLines (lines.take i)).performLine line := by
  induction lines generalizing s i with
  | nil => simp [replies]
  | cons line rest ih =>
    unfold replies
    cases i with
    | zero =>
      simp only [List.getElem?_cons_zero, List.take_zero, List.not_mem_nil, false_implies,
        implies_true, true_and, Option.some.injEq, exists_eq_left']
      exact eq_comm
    | succ i =>
      rw [List.getElem?_cons_succ, List.take_succ_cons, List.forall_mem_cons, afterLines_cons,
        List.getElem?_cons_succ]
      cases hcontinues : (s.performLine line).continues with
      | true =>
        have hne : inputWords line ≠ ["exit"] := by
          rw [ne_eq, ← continues_performLine (s := s), hcontinues]
          nofun
        simp only [if_true, ih, hne, ne_eq, not_false_eq_true, true_and]
      | false =>
        have hexit := continues_performLine.mp hcontinues
        simp [hexit]

/-- Lines that do not drive leave no trace in the machine. -/
theorem machine_afterLines (h : s.machine = s'.machine) (lines : List String) :
    (s.afterLines lines).machine = (s'.afterLines (lines.filter Drives)).machine := by
  induction lines generalizing s s' with
  | nil => exact h
  | cons line rest ih =>
    rw [afterLines_cons]
    by_cases hdrives : Drives line
    · rw [List.filter_cons_of_pos (by simpa using hdrives), afterLines_cons]
      exact ih (performLine_agrees h line).machine
    · rw [List.filter_cons_of_neg (by simpa using hdrives)]
      exact ih ((machine_performLine hdrives).trans h)

theorem replies_agree (h : s.machine = s'.machine) (lines : List String) :
    List.Forall₂ Reply.Agrees (s.replies lines) (s'.replies lines) := by
  induction lines generalizing s s' with
  | nil => exact .nil
  | cons line rest ih =>
    have hagrees := performLine_agrees h line
    unfold replies
    refine .cons hagrees ?_
    rw [hagrees.continues]
    split
    · exact ih hagrees.machine
    · exact .nil

/-- **To look is not to touch.**  A session replies to lines up to the first that says
`exit`.  Each of its replies is the one it would give if the lines before that do not drive
were left out: the same machine, log records and text for the standard output.  Whether it
traces is no part of this, is switched by the two lines for that purpose alone, and shows in
notices only. -/
theorem observation_leaves_no_trace (s : Session) (lines : List String) :
    (∀ i reply, (s.replies lines)[i]? = some reply →
      ∃ kept reply', kept = (lines.take i).filter Drives ∧
        (s.replies (kept ++ lines.drop i))[kept.length]? = some reply' ∧ reply.Agrees reply') ∧
    (∀ tracing, List.Forall₂ Reply.Agrees (replies { s with tracing } lines) (s.replies lines)) ∧
    (∀ i, i < (s.replies lines).length ↔
      i < lines.length ∧ ∀ line ∈ lines.take i, inputWords line ≠ ["exit"]) ∧
    ∀ line,
      (¬ Drives line → (s.performLine line).session.machine = s.machine) ∧
      (s.performLine line).session.tracing =
        (if inputWords line = ["trace", "on"] then true
         else if inputWords line = ["trace", "off"] then false
         else s.tracing) ∧
      ((s.performLine line).continues = false ↔ inputWords line = ["exit"]) := by
  refine ⟨fun i reply hreply => ?_, fun tracing => ?_, fun i => ?_, fun line =>
    ⟨machine_performLine, tracing_performLine, continues_performLine⟩⟩
  · obtain ⟨hreached, line, hline, rfl⟩ := getElem?_replies.mp hreply
    have hkept : ∀ l ∈ (lines.take i).filter Drives, inputWords l ≠ ["exit"] := fun l hl =>
      hreached l (List.mem_of_mem_filter hl)
    have hfirst : (lines.drop i)[0]? = some line := by rwa [List.getElem?_drop]
    refine ⟨_, (s.afterLines ((lines.take i).filter Drives)).performLine line, rfl, ?_,
      performLine_agrees (machine_afterLines rfl _) line⟩
    rw [getElem?_replies, List.take_left, List.getElem?_append_right (Nat.le_refl _),
      Nat.sub_self]
    exact ⟨hkept, line, hfirst, rfl⟩
  · have hsame : ({ s with tracing } : Session).machine = s.machine := rfl
    exact replies_agree hsame lines
  · constructor
    · intro hi
      obtain ⟨hreached, line, hline, -⟩ := getElem?_replies.mp (List.getElem?_eq_getElem hi)
      exact ⟨(List.getElem?_eq_some_iff.mp hline).1, hreached⟩
    · rintro ⟨hi, hreached⟩
      have hreply := (getElem?_replies (s := s)).mpr
        ⟨hreached, _, List.getElem?_eq_getElem hi, rfl⟩
      exact (List.getElem?_eq_some_iff.mp hreply).1

theorem observation_leaves_no_trace_of_five_lines :
    ∃ m reply reply', Machine.load #[0x20080001, 0x8FA90001] {} = .ok m ∧
      (replies { machine := m } ["trace on", " mem", "step 5", "\tstep", "s"])[4]? = some reply ∧
      (replies { machine := m } ["\tstep", "s"])[1]? = some reply' ∧ reply.Agrees reply' ∧
      (performLine { machine := m } "step 5").session.machine = m := by
  have hrun : (Machine.load #[0x20080001, 0x8FA90001] {}).toOption.isSome := by
    decide +kernel
  obtain ⟨m, hload⟩ := Option.isSome_iff_exists.mp hrun
  rw [toOption_eq_some] at hload
  obtain ⟨hkeeps, -, hreached, hsingle⟩ := observation_leaves_no_trace { machine := m }
    ["trace on", " mem", "step 5", "\tstep", "s"]
  have hlast := (hreached 4).mpr ⟨by decide, by decide +kernel⟩
  obtain ⟨_, reply', rfl, hreply', hagrees⟩ := hkeeps 4 _ (List.getElem?_eq_getElem hlast)
  have hkept : (["trace on", " mem", "step 5", "\tstep", "s"].take 4).filter Drives =
      ["\tstep"] := by
    decide +kernel
  rw [hkept] at hreply'
  exact ⟨m, _, reply', hload, List.getElem?_eq_getElem hlast, hreply', hagrees,
    (hsingle "step 5").1 (by decide +kernel)⟩

end Session
end Mips.Debugger
