import Reckoner.Proofs.Binary64.Spelling
import Reckoner.Proofs.Maximality
import Reckoner.Proofs.Respelling
import Reckoner.Proofs.Source
import Reckoner.Proofs.Viability

namespace Reckoner

/-- A message about what stands where, and not about the text of a token. -/
def IsPlacement (message : String) : Prop :=
  ∃ first ∈ ["Expected", "Unmatched", "Nesting", "Unrecognized"],
    first.toList <+: message.toList

namespace IsPlacement

theorem expected {message : String} (begun : "Expected".toList <+: message.toList) :
    IsPlacement message :=
  ⟨"Expected", by decide, begun⟩

theorem append {first : String} (begun : IsPlacement first) (rest : String) :
    IsPlacement (first ++ rest) := by
  obtain ⟨name, member, part⟩ := begun
  refine ⟨name, member, part.trans ?_⟩
  rw [String.toList_append]
  exact List.prefix_append ..

/-- The messages about the text of a token begin otherwise. -/
theorem not_textual {message text : String} (placement : IsPlacement message)
    (textual : text ∈ ["Unknown operator", "Invalid number literal"]) :
    ¬text.toList <+: message.toList := by
  intro part
  obtain ⟨first, member, part'⟩ := placement
  have shorter : ∀ first ∈ ["Expected", "Unmatched", "Nesting", "Unrecognized"],
      ∀ text ∈ ["Unknown operator", "Invalid number literal"],
        first.toList.length ≤ text.toList.length ∧ ¬first.toList <+: text.toList := by decide
  obtain ⟨length, differs⟩ := shorter first member text textual
  exact differs (List.prefix_of_prefix_length_le part' part length)

theorem missing (expected : Expectation) : IsPlacement expected.missing := by
  cases expected <;> exact .expected (by decide)

theorem unrecognized (found : Unrecognized) : IsPlacement found.message := by
  have begun : IsPlacement "Unrecognized character `" := ⟨"Unrecognized", by decide, by decide⟩
  exact ((begun.append _).append _).append _

end IsPlacement

section Refusal

variable {α : Type} [Arithmetic α] {groups : Nat} {token : Token} {message : String}

/-- Where an operand is expected, the only text that is refused is that of a numeral that is not
read. -/
theorem operandRefusal?_of_isSpelled {signable : Bool} (spelled : token.IsSpelled)
    (refused : operandRefusal? α signable groups token = some message) :
    IsPlacement message ∨ ∃ numeral : NumeralText, token = .number numeral.lexeme ∧
      (Arithmetic.read? numeral.lexeme : Option α) = none ∧
      message = s!"Invalid number literal `{numeral.lexeme}`" := by
  have expected : IsPlacement "Expected operand, found `" := .expected (by decide)
  have operator : IsPlacement "Expected operand, found operator `" := .expected (by decide)
  cases spelled with
  | number numeral =>
    simp only [operandRefusal?] at refused
    split at refused
    · cases refused
    · rename_i unread
      cases refused
      exact Or.inr ⟨numeral, rfl, by simpa using unread, rfl⟩
  | opening =>
    simp only [operandRefusal?] at refused
    split at refused
    · cases refused
    · cases refused
      exact Or.inl ⟨"Nesting", by decide, by decide⟩
  | closing =>
    cases refused
    exact Or.inl (.expected (by decide))
  | operator op =>
    simp only [operandRefusal?] at refused
    split at refused
    · cases refused
      exact Or.inl ((expected.append _).append _)
    split at refused
    · cases refused
    · cases refused
      exact Or.inl ((operator.append _).append _)

/-- Where an operator is expected, no text is refused: the symbols all name operations. -/
theorem operatorRefusal?_of_isSpelled (spelled : token.IsSpelled)
    (refused : operatorRefusal? groups token = some message) : IsPlacement message := by
  have expected : IsPlacement "Expected operator, found `" := .expected (by decide)
  cases spelled with
  | number numeral =>
    cases refused
    exact (expected.append _).append _
  | opening =>
    cases refused
    exact .expected (by decide)
  | closing =>
    simp only [operatorRefusal?] at refused
    split at refused
    · cases refused
    · cases refused
      exact ⟨"Unmatched", by decide, by decide⟩
  | operator op =>
    have known : String.singleton op.symbol ∈ ["+", "-", "*", "/"] := by cases op <;> decide
    simp only [operatorRefusal?, if_pos known] at refused
    cases refused

theorem refusal?_of_isSpelled {expected : Expectation} (spelled : token.IsSpelled)
    (refused : refusal? α groups expected token = some message) :
    IsPlacement message ∨ ∃ numeral : NumeralText, token = .number numeral.lexeme ∧
      (Arithmetic.read? numeral.lexeme : Option α) = none ∧
      message = s!"Invalid number literal `{numeral.lexeme}`" := by
  cases expected with
  | expression => exact operandRefusal?_of_isSpelled spelled refused
  | operand => exact operandRefusal?_of_isSpelled spelled refused
  | primary => exact operandRefusal?_of_isSpelled spelled refused
  | operator => exact Or.inl (operatorRefusal?_of_isSpelled spelled refused)

/-- Reading tokens as they are spelled fails over what stands where, or over the text of a numeral
among them. -/
theorem parse_error_of_isSpelled {tokens : List Token} {fault : Fault}
    (spelled : ∀ token ∈ tokens, token.IsSpelled)
    (failed : (Parser.ofTokens tokens).parse.result = (.error fault : Except Fault α)) :
    IsPlacement fault.message ∨ ∃ numeral : NumeralText, .number numeral.lexeme ∈ tokens ∧
      (Arithmetic.read? numeral.lexeme : Option α) = none ∧
      fault.message = s!"Invalid number literal `{numeral.lexeme}`" := by
  rcases State.reach_or_stops (Parser.initial : State α) tokens with
    ⟨folds, state, reach⟩ | ⟨before, token, rest, folds, state, rfl, reach, stops⟩
  · rw [(parse_error_of_reach reach failed).1]
    exact Or.inl (.missing _)
  · obtain ⟨found, refused, error⟩ := parse_error_of_stops reach stops
    rw [error] at failed
    cases failed
    have member : token ∈ before ++ token :: rest := by simp
    rcases refusal?_of_isSpelled (spelled token member) refused with
      placement | ⟨numeral, rfl, unread, message⟩
    · exact Or.inl placement
    · exact Or.inr ⟨numeral, member, unread, message⟩

/-- And so does a source that has no value: what is scanned is spelled as tokens are. -/
theorem evaluate_error {lenient : Bool} {source : String} {why : Failure}
    (failed : (evaluate lenient source : Evaluation α).result = .error why) :
    IsPlacement why.message ∨ ∃ (tokens : List Token) (numeral : NumeralText),
      scan lenient source = .ok tokens ∧ .number numeral.lexeme ∈ tokens ∧
      (Arithmetic.read? numeral.lexeme : Option α) = none ∧
      why.message = s!"Invalid number literal `{numeral.lexeme}`" := by
  cases scanned : scan lenient source with
  | error found =>
    rw [evaluate_result_of_scan_error scanned] at failed
    cases failed
    exact Or.inl (.unrecognized found)
  | ok tokens =>
    rw [evaluate_result_of_scan scanned] at failed
    cases parsed : ((Parser.ofTokens tokens).parse : Reading α α).result with
    | ok value =>
      rw [parsed] at failed
      cases failed
    | error fault =>
      rw [parsed] at failed
      cases failed
      rcases parse_error_of_isSpelled (isSpelled_of_scan scanned) parsed with
        placement | ⟨numeral, member, unread, message⟩
      · exact Or.inl placement
      · exact Or.inr ⟨tokens, numeral, rfl, member, unread, message⟩

end Refusal

namespace NumeralText

variable (numeral : NumeralText)

theorem read?_eq_none_iff :
    (Arithmetic.read? numeral.lexeme : Option Float) = none ↔ numeral.IsUnfinished := by
  rw [isUnfinished_iff, ← Binary64.read?_isSome_iff, Bool.not_eq_true, Option.isSome_eq_false_iff,
    Option.isNone_iff_eq_none]
  rfl

/-- A numeral is refused for its text if its marker is the end of it, but for a sign. -/
theorem takeOperand_refused_iff (state : State Float) (slot : Slot Float) (negated : Bool) :
    state.takeOperand slot negated (.number numeral.lexeme) =
      .refused (.invalidNumber numeral.lexeme) true ↔ numeral.IsUnfinished := by
  rw [← numeral.read?_eq_none_iff, State.takeOperand]
  cases (Arithmetic.read? numeral.lexeme : Option Float) with
  | none => exact iff_of_true rfl rfl
  | some magnitude =>
    constructor
    · intro refused
      cases refused
    · intro unread
      cases unread

/-- A numeral has no sign, and is no name. -/
theorem unsigned_of_read? {x : Float} (read : Arithmetic.read? numeral.lexeme = some x) :
    x.isNaN = false ∧ x.toBits.toNat < 2 ^ 63 := by
  obtain ⟨first, rest, chars, digit⟩ := numeral.exists_first
  rw [← numeral.toList_lexeme] at chars
  have magnitude := (Binary64.read?_eq_of_digit chars digit).symm.trans read
  obtain ⟨decimal, _, rfl⟩ := Option.map_eq_some_iff.mp magnitude
  have within := (Binary64.roundsTo_ofDecimal decimal).le_infinity
  refine ⟨Binary64.isNaN_ofMagnitude false within, ?_⟩
  rw [Binary64.toNat_toBits_ofMagnitude false within, if_neg Bool.false_ne_true, Nat.zero_add]
  exact Binary64.lt_of_le_infinity within

end NumeralText

/-- The numbers of a source are its longest numerals, and of their texts only those are left to
refuse that break off at a marker. -/
structure MunchesNumerals (lenient : Bool) (source : String) : Prop where
  /-- The tokens of a scan that goes well are found one after the other. -/
  scanned : ∀ tokens, scan lenient source = .ok tokens →
    (Scanner.ofString lenient source).drain.filterMap Item.token? = tokens
  /-- A number is found wherever a numeral begins that is not within another token, and it is the
  longest one there. -/
  longest : ∀ offset lexeme,
    .token offset (.number lexeme) ∈ (Scanner.ofString lenient source).drain ↔
      (∃ numeral : NumeralText, lexeme = numeral.lexeme ∧ numeral.IsLongestAt source offset) ∧
        ∀ item ∈ (Scanner.ofString lenient source).drain, item.isToken = true →
          ¬(item.offset < offset ∧ offset < item.stop)
  /-- Every operator that is found names an operation. -/
  known : ∀ why, (evaluate lenient source : Evaluation Float).result = .error why →
    ¬"Unknown operator".toList <+: why.message.toList
  /-- The text of a number is refused only if it breaks off at its marker. -/
  invalid : ∀ why, (evaluate lenient source : Evaluation Float).result = .error why →
    ∀ lexeme, why.message = s!"Invalid number literal `{lexeme}`" →
      ∃ numeral : NumeralText, lexeme = numeral.lexeme ∧ numeral.IsUnfinished ∧
        ∃ tokens, scan lenient source = .ok tokens ∧ .number lexeme ∈ tokens

/-- Scanning and reading agree on what a number is. Numerals are munched as far as they go; what is
read is told by a grammar of its own, in which all of them are numbers but those that break off at
a marker; and none of those that are read is negative or fails to be a number. -/
theorem numerals_munched_and_read :
    (∀ lenient source, MunchesNumerals lenient source) ∧
      (∀ text, (Arithmetic.read? text : Option Float).isSome = true ↔ IsNumber text.toList) ∧
      ∀ numeral : NumeralText,
        (∀ (state : State Float) (slot : Slot Float) (negated : Bool),
          state.takeOperand slot negated (.number numeral.lexeme) =
            .refused (.invalidNumber numeral.lexeme) true ↔ numeral.IsUnfinished) ∧
        ∀ x : Float, Arithmetic.read? numeral.lexeme = some x →
          x.isNaN = false ∧ x.toBits.toNat < 2 ^ 63 := by
  refine ⟨fun lenient source => ⟨fun _ => Scanner.drain_of_scan,
    fun _ _ => Scanner.number_mem_drain_iff, ?_, ?_⟩, fun _ => Binary64.isSome_read?_iff,
    fun numeral => ⟨numeral.takeOperand_refused_iff, fun _ => numeral.unsigned_of_read?⟩⟩
  · intro why failed unknown
    rcases evaluate_error failed with placement | ⟨_, numeral, _, _, _, message⟩
    · exact placement.not_textual (by decide) unknown
    · have textual : "Invalid number literal `".toList <+: why.message.toList := by
        simp only [message, String.toList_append, List.append_assoc]
        exact List.prefix_append ..
      have differs : ¬"Unknown operator".toList <+: "Invalid number literal `".toList := by decide
      exact differs (List.prefix_of_prefix_length_le unknown textual (by decide))
  · intro why failed lexeme invalid
    rcases evaluate_error failed with placement | ⟨tokens, numeral, scanned, member, unread, message⟩
    · have textual : "Invalid number literal".toList <+: why.message.toList := by
        have begun : "Invalid number literal".toList <+: "Invalid number literal `".toList := by
          decide
        simp only [invalid, String.toList_append, List.append_assoc]
        exact begun.trans (List.prefix_append ..)
      exact absurd textual (placement.not_textual (by decide))
    · have chars := congrArg String.toList (invalid.symm.trans message)
      simp only [String.toList_append] at chars
      obtain rfl : lexeme = numeral.lexeme :=
        String.toList_inj.mp (List.append_cancel_left (List.append_cancel_right chars))
      exact ⟨numeral, rfl, numeral.read?_eq_none_iff.mp unread, tokens, scanned, member⟩

end Reckoner
