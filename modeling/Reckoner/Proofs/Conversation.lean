import Reckoner.CommandLine
import Reckoner.Proofs.Concatenation
import Reckoner.Proofs.Display
import Reckoner.Proofs.Lines

namespace Reckoner

namespace Output

variable (first second third : Output)

theorem append_eq :
    first ++ second = ⟨first.stdout ++ second.stdout, first.stderr ++ second.stderr⟩ :=
  rfl

theorem append_assoc : first ++ second ++ third = first ++ (second ++ third) := by
  simp only [append_eq, String.append_assoc]

theorem append_empty : first ++ ⟨"", ""⟩ = first := by
  simp only [append_eq, String.append_empty]

end Output

/-- A text is scanned to nothing when it is blank, and a strict scan passes nothing else over. -/
theorem scan_eq_nil_iff (text : String) :
    scan false text = .ok [] ↔ text.toList.all Text.isBlank = true := by
  rw [scan_eq_ok_iff, List.all_eq_true]
  constructor
  · rintro ⟨nothing, recognized⟩
    cases first : Item.first? 0 text.toList with
    | none => exact Item.first?_eq_none_iff.mp first
    | some found =>
      obtain ⟨item, behind⟩ := found
      have items : Place.items ⟨0, text.toList⟩ = item :: behind.items := Place.items_of_first? first
      rw [items] at nothing recognized
      obtain ⟨token, named⟩ :=
        Option.isSome_iff_exists.mp (recognized rfl item (List.mem_cons_self ..))
      rw [List.filterMap_cons_some named] at nothing
      cases nothing
  · intro blanks
    have items : Place.items ⟨0, text.toList⟩ = [] := Place.items_of_blanks blanks
    rw [items]
    exact ⟨rfl, fun _ => List.forall_mem_nil _⟩

namespace Session

def IsText (line : List UInt8) : Prop :=
  ∃ text, bytes text = line

/-- The arguments with which a text is evaluated on its own, whatever it begins with. -/
def arguments (lenient : Bool) (text : String) : List String :=
  "eval" :: (if lenient then ["--lenient"] else []) ++ ["--", text]

/-- A line is passed over when there is nothing in it. Any other is answered as if it had been the
only one. -/
structure IsAnswered (lenient : Bool) (text : String) (answer : Output) : Prop where
  passedOver : answer = ⟨"", ""⟩ ↔ scan false text = .ok []
  alone : scan false text ≠ .ok [] → ∃ command,
    Command.ofArguments? (arguments lenient text) = some command ∧
    ∀ input, (command.run input).output = answer
  told : scan false text ≠ .ok [] →
    match (evaluate lenient text : Evaluation Float).result with
    | .ok value => answer = ⟨Arithmetic.render value ++ "\n", ""⟩
    | .error (.unrecognized found) =>
      let message := s!"Unrecognized character `{found.char}` at offset {found.offset}"
      answer = ⟨"", "error: " ++ message ++ "\n"⟩
    | .error (.malformed fault) => answer = ⟨"", "error: " ++ fault.message ++ "\n"⟩

/-- What is written for some lines, each with the prompt for the next. -/
def transcript (lenient : Bool) (texts : List String) : Output :=
  texts.foldr (fun text later => answer lenient text ++ ⟨"> ", ""⟩ ++ later) ⟨"", ""⟩

/-- A session goes on to the end of its lines or to the first that is not text. -/
inductive Proceeds (lenient : Bool) : List (List UInt8) → Outcome → Prop
  | toEnd (texts) : Proceeds lenient (texts.map bytes)
      ⟨⟨"> ", ""⟩ ++ transcript lenient texts ++ ⟨"\n", ""⟩, 0⟩
  | brokenOff (texts) {line} (later) : ¬IsText line →
      Proceeds lenient (texts.map bytes ++ line :: later)
        ⟨⟨"> ", ""⟩ ++ transcript lenient texts ++
          ⟨"", "error: stream did not contain valid UTF-8\n"⟩, 1⟩

/-- What a session on two streams makes of those on each of them: nothing is lost but the last
newline of the first and the first prompt of the second, and a session that is broken off does not
come to the second. -/
structure Composes (lenient : Bool) (first second : List UInt8) : Prop where
  onward : (∀ line ∈ lines [] first, IsText line) → ∃ before behind,
    (run lenient first).output.stdout = before ++ "\n" ∧
    (run lenient second).output.stdout = "> " ++ behind ∧
    (run lenient (first ++ second)).output.stdout = before ++ behind ∧
    (run lenient (first ++ second)).output.stderr =
      (run lenient first).output.stderr ++ (run lenient second).output.stderr ∧
    (run lenient (first ++ second)).exit = (run lenient second).exit
  brokenOff : (∃ line ∈ lines [] first, ¬IsText line) →
    run lenient (first ++ second) = run lenient first

/-- A session is its lines one after the other, each answered as if it had been the only one. -/
structure Converses (lenient : Bool) : Prop where
  /-- There is one way to split a stream into lines. -/
  split : ∀ input pieces, AreLines input pieces ↔ pieces = lines [] input
  /-- There is one text to show a value by. -/
  shown : ∀ (value : Float) (text : String), IsShownAs value text ↔ text = Arithmetic.render value
  answers : ∀ text, IsAnswered lenient text (answer lenient text)
  proceeds : ∀ input, Proceeds lenient (lines [] input) (run lenient input)
  composes : ∀ first second, first.getLast? = some 10 → Composes lenient first second

section Answer

variable (lenient : Bool) (text : String)

theorem ofArguments?_arguments :
    Command.ofArguments? (arguments lenient text) = some (.eval lenient text) := by
  cases lenient <;> rfl

theorem output_ofEvaluation (evaluation : Evaluation Float) :
    match evaluation.result with
    | .ok value => (Outcome.ofEvaluation evaluation).output = ⟨Arithmetic.render value ++ "\n", ""⟩
    | .error (.unrecognized found) =>
      let message := s!"Unrecognized character `{found.char}` at offset {found.offset}"
      (Outcome.ofEvaluation evaluation).output = ⟨"", "error: " ++ message ++ "\n"⟩
    | .error (.malformed fault) =>
      (Outcome.ofEvaluation evaluation).output = ⟨"", "error: " ++ fault.message ++ "\n"⟩ := by
  unfold Outcome.ofEvaluation
  cases evaluation.result with
  | ok value => rfl
  | error why => cases why <;> rfl

theorem output_ofEvaluation_ne_empty (evaluation : Evaluation Float) :
    (Outcome.ofEvaluation evaluation).output ≠ ⟨"", ""⟩ := by
  intro silent
  unfold Outcome.ofEvaluation at silent
  cases result : evaluation.result with
  | ok value =>
    rw [result] at silent
    have nothing := congrArg (·.stdout) silent
    simp [Outcome.success] at nothing
  | error why =>
    rw [result] at silent
    have nothing := congrArg (·.stderr) silent
    simp [Outcome.failure] at nothing

theorem answer_isAnswered : IsAnswered lenient text (answer lenient text) := by
  cases blank : text.toList.all Text.isBlank with
  | true =>
    have nothing := (scan_eq_nil_iff text).mpr blank
    have silent : answer lenient text = ⟨"", ""⟩ := if_pos blank
    exact ⟨iff_of_true silent nothing, (absurd nothing ·), (absurd nothing ·)⟩
  | false =>
    have something : scan false text ≠ .ok [] := fun nothing =>
      Bool.false_ne_true (blank.symm.trans ((scan_eq_nil_iff text).mp nothing))
    have spoken : answer lenient text = (Outcome.ofEvaluation (evaluate lenient text)).output :=
      if_neg (blank ▸ Bool.false_ne_true)
    rw [spoken]
    exact ⟨iff_of_false (output_ofEvaluation_ne_empty _) something,
      fun _ => ⟨_, ofArguments?_arguments lenient text, fun _ => rfl⟩,
      fun _ => output_ofEvaluation _⟩

end Answer

section Replies

variable {lenient : Bool}

theorem replyAll_bytes (texts : List String) (written : Output) (rest : List (List UInt8)) :
    replyAll lenient written (texts.map bytes ++ rest) =
      replyAll lenient (written ++ transcript lenient texts) rest := by
  induction texts generalizing written with
  | nil => rw [transcript, List.foldr_nil, Output.append_empty, List.map_nil, List.nil_append]
  | cons text texts ih =>
    have reply : reply? lenient (bytes text) = some (answer lenient text ++ ⟨"> ", ""⟩) := by
      rw [reply?, fromUTF8?_eq_some_iff.mpr rfl]
      rfl
    rw [List.map_cons, List.cons_append, replyAll, reply]
    dsimp only
    rw [ih, Output.append_assoc]
    rfl

theorem replyAll_of_not_text {line : List UInt8} (notText : ¬IsText line) (written : Output)
    (rest : List (List UInt8)) : replyAll lenient written (line :: rest) =
      ⟨written ++ ⟨"", "error: stream did not contain valid UTF-8\n"⟩, 1⟩ := by
  have silent : reply? lenient line = none := by
    rw [reply?, Option.map_eq_none_iff]
    refine Option.eq_none_iff_forall_ne_some.mpr fun text read => ?_
    exact notText ⟨text, fromUTF8?_eq_some_iff.mp read⟩
  rw [replyAll, silent]
  rfl

/-- What has been written before has no part in what follows. -/
theorem replyAll_append (lenient : Bool) (before written : Output) (rest : List (List UInt8)) :
    replyAll lenient (before ++ written) rest =
      { replyAll lenient written rest with
        output := before ++ (replyAll lenient written rest).output } := by
  induction rest generalizing written with
  | nil => exact congrArg (Outcome.mk · 0) (Output.append_assoc ..)
  | cons line rest ih =>
    rw [replyAll, replyAll]
    cases reply? lenient line with
    | none => exact congrArg (Outcome.mk · 1) (Output.append_assoc ..)
    | some reply =>
      dsimp only
      rw [Output.append_assoc, ih]

/-- Lines are all text or there is a first that is not. -/
theorem texts_or_not (pieces : List (List UInt8)) :
    (∃ texts : List String, pieces = texts.map bytes) ∨
      ∃ (texts : List String) (line : List UInt8) (later : List (List UInt8)),
        ¬IsText line ∧ pieces = texts.map bytes ++ line :: later := by
  induction pieces with
  | nil => exact Or.inl ⟨[], rfl⟩
  | cons line pieces ih =>
    by_cases isText : IsText line
    · obtain ⟨text, rfl⟩ := isText
      rcases ih with ⟨texts, rfl⟩ | ⟨texts, other, later, notText, rfl⟩
      · exact Or.inl ⟨text :: texts, rfl⟩
      · exact Or.inr ⟨text :: texts, other, later, notText, rfl⟩
    · exact Or.inr ⟨[], line, pieces, isText, rfl⟩

theorem replyAll_texts (texts : List String) (written : Output) :
    replyAll lenient written (texts.map bytes) =
      ⟨written ++ transcript lenient texts ++ ⟨"\n", ""⟩, 0⟩ := by
  have whole : replyAll lenient written _ = _ := replyAll_bytes texts written []
  rwa [List.append_nil] at whole

theorem replyAll_proceeds (pieces : List (List UInt8)) :
    Proceeds lenient pieces (replyAll lenient ⟨"> ", ""⟩ pieces) := by
  rcases texts_or_not pieces with ⟨texts, rfl⟩ | ⟨texts, line, later, notText, rfl⟩
  · rw [replyAll_texts]
    exact .toEnd texts
  · rw [replyAll_bytes, replyAll_of_not_text notText]
    exact .brokenOff texts later notText

theorem run_append {first : List UInt8} (fed : first.getLast? = some 10) (second : List UInt8) :
    run lenient (first ++ second) =
      replyAll lenient ⟨"> ", ""⟩ (lines [] first ++ lines [] second) := by
  obtain ⟨front, rfl⟩ := List.getLast?_eq_some_iff.mp fed
  rw [run, List.append_assoc, List.singleton_append, lines_append_of_feed, prompt]

theorem run_composes {first : List UInt8} (fed : first.getLast? = some 10) (second : List UInt8) :
    Composes lenient first second := by
  rcases texts_or_not (lines [] first) with ⟨texts, same⟩ | ⟨texts, line, later, notText, same⟩
  · have allText : ∀ line ∈ lines [] first, IsText line := by
      rw [same]
      exact List.forall_mem_map.mpr fun text _ => ⟨text, rfl⟩
    refine ⟨fun _ => ?_, fun ⟨line, inside, notText⟩ => absurd (allText line inside) notText⟩
    have alone : run lenient first =
        ⟨⟨"> ", ""⟩ ++ transcript lenient texts ++ ⟨"\n", ""⟩, 0⟩ := by
      rw [run, same, replyAll_texts, prompt]
    -- Behind its first prompt, the second stream is answered alike in both sessions.
    have behind := replyAll_append lenient ⟨"> ", ""⟩ ⟨"", ""⟩ (lines [] second)
    have whole := replyAll_append lenient (⟨"> ", ""⟩ ++ transcript lenient texts) ⟨"", ""⟩
      (lines [] second)
    rw [Output.append_empty] at behind whole
    rw [run_append fed, same, replyAll_bytes, whole, alone, run, prompt, behind]
    refine ⟨"> " ++ (transcript lenient texts).stdout, _, rfl, rfl, rfl, ?_, rfl⟩
    simp only [Output.append_eq, String.empty_append, String.append_empty]
  · have broken : ¬∀ line ∈ lines [] first, IsText line := by
      intro allText
      refine notText (allText line ?_)
      rw [same]
      exact List.mem_append_right _ (List.mem_cons_self ..)
    refine ⟨(absurd · broken), fun _ => ?_⟩
    rw [run_append fed, run, same, List.append_assoc, List.cons_append, replyAll_bytes,
      replyAll_bytes, replyAll_of_not_text notText, replyAll_of_not_text notText, prompt]

/-- Sessions are told by their lines, in both modes and whatever bytes are read. -/
theorem converses (lenient : Bool) : Converses lenient where
  split := areLines_iff
  shown := isShownAs_iff
  answers := answer_isAnswered lenient
  proceeds input := replyAll_proceeds (lines [] input)
  composes _ second fed := run_composes fed second

end Replies

end Session

end Reckoner
