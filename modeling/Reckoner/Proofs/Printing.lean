import Reckoner.Proofs.Display
import Reckoner.Proofs.Lines

namespace Reckoner

namespace Binary64

/-- A number that is not finite is shown by letters. -/
theorem render_of_not_finite {x : Float} (infinite : x.isFinite = false) :
    ∃ negative first letters, (render x).toList = signChars negative ++ first :: letters ∧
      ∀ c ∈ first :: letters, c.isAlpha = true := by
  obtain ⟨negative, word, within, fields, value⟩ := exists_bits x
  have large : ¬word < infinity := by
    rw [← isFinite_iff within fields, infinite]
    exact Bool.false_ne_true
  rw [render_eq within value]
  by_cases past : infinity < word
  · rw [if_pos past]
    exact ⟨false, 'N', ['a', 'N'], rfl, List.all_eq_true.mp rfl⟩
  · have top : word = infinity := by omega
    rw [if_neg past, if_pos top]
    exact ⟨negative, 'i', ['n', 'f'], toList_signed negative "inf", List.all_eq_true.mp rfl⟩

end Binary64

open Binary64

section Finite

variable (negative lenient : Bool) {word : Nat} (finite : word < infinity)
include finite

theorem toList_render : (render (ofMagnitude negative word)).toList =
    signChars negative ++ (printed word).chars := by
  rw [render_ofMagnitude negative finite.le, if_neg finite.ne, toList_signed,
    NumeralText.toList_lexeme]

/-- A minus sign is read as an operator that the number behind it is negated by. -/
theorem evaluate_render_ofMagnitude :
    (evaluate lenient (render (ofMagnitude negative word))).result =
      .ok (ofMagnitude negative word) := by
  have reads : Arithmetic.read? (printed word).lexeme = some (ofMagnitude false word) :=
    (read?_literal_eq_some_iff _ _).mpr (isShortest_printed finite).rounded
  rw [evaluate_numeral negative _ reads (toList_render negative finite),
    ← ofMagnitude_eq_signed negative finite.le]

theorem answer_render :
    Session.answer lenient (render (ofMagnitude negative word)) =
      ⟨render (ofMagnitude negative word) ++ "\n", ""⟩ := by
  have value := evaluate_render_ofMagnitude negative lenient finite
  obtain ⟨first, rest, chars, digit⟩ := (printed word).exists_first
  have seen : (render (ofMagnitude negative word)).toList.all Text.isBlank = false := by
    rw [toList_render negative finite, chars, List.all_append, List.all_cons,
      Item.isBlank_eq_false_of_isDigit digit, Bool.false_and, Bool.and_false]
  unfold Session.answer
  rw [seen, if_neg Bool.false_ne_true, Outcome.ofEvaluation, value]
  rfl

end Finite

/-- The letter stands in the text behind this many bytes, and there is no letter before it. -/
def IsFirstLetter (text : String) (found : Unrecognized) : Prop :=
  ∃ before behind, text.toList = before ++ found.char :: behind ∧ found.char.isAlpha = true ∧
    (∀ c ∈ before, c.isAlpha = false) ∧ found.offset = (String.ofList before).utf8ByteSize

/-- What is printed is read back as the number again. Given as a line it is answered by itself. -/
structure PrintsBack (x : Float) : Prop where
  value : ∀ lenient, (evaluate lenient (render x)).result = .ok x
  reply : ∀ lenient, Session.reply? lenient (render x).toUTF8.data.toList =
    some ⟨render x ++ "\n" ++ "> ", ""⟩

/-- What is printed has no value: strict scanning stops at its first letter, and without its letters
it is no expression. -/
structure IsRefused (x : Float) : Prop where
  strict : ∃ found, IsFirstLetter (render x) found ∧
    (evaluate false (render x) : Evaluation Float).result = .error (.unrecognized found)
  lenient : ∃ fault,
    (evaluate true (render x) : Evaluation Float).result = .error (.malformed fault)

theorem printsBack_ofMagnitude (negative : Bool) {word : Nat} (finite : word < infinity) :
    PrintsBack (ofMagnitude negative word) := by
  refine ⟨fun lenient => evaluate_render_ofMagnitude negative lenient finite, fun lenient => ?_⟩
  rw [Session.reply?, fromUTF8?_bytes, Option.map_some, answer_render negative lenient finite]
  rfl

theorem isRefused_of_not_finite {x : Float} (infinite : x.isFinite = false) : IsRefused x := by
  obtain ⟨negative, first, letters, chars, areLetters⟩ := render_of_not_finite infinite
  have letter := areLetters first (List.mem_cons_self ..)
  have strict := scan_letters_strict negative letter chars
  have lenient := scan_letters_lenient negative areLetters chars
  have noLetter : ∀ c ∈ signChars negative, c.isAlpha = false := by
    intro c inside
    cases negative with
    | false => cases inside
    | true =>
      rw [List.mem_singleton.mp inside]
      rfl
  refine ⟨⟨_, ⟨_, _, chars, letter, noLetter, rfl⟩, evaluate_result_of_scan_error strict⟩, ?_⟩
  rw [evaluate_result_of_scan lenient]
  cases negative with
  | false => exact ⟨_, rfl⟩
  | true => exact ⟨_, rfl⟩

/-- Every number is printed as it is to be shown. A finite one can then be fed back, and no other
can. -/
theorem printsBack_or_isRefused (x : Float) :
    (∀ text, IsShownAs x text ↔ text = render x) ∧
      ((x.isFinite = true ∧ PrintsBack x) ∨ (x.isFinite = false ∧ IsRefused x)) := by
  refine ⟨isShownAs_iff x, ?_⟩
  cases finite : x.isFinite with
  | true =>
    obtain ⟨negative, word, below, rfl⟩ := exists_ofMagnitude finite
    exact Or.inl ⟨rfl, printsBack_ofMagnitude negative below⟩
  | false => exact Or.inr ⟨rfl, isRefused_of_not_finite finite⟩

end Reckoner
