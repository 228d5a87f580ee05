import Reckoner.Binary64
import Reckoner.Proofs.Acceptance
import Reckoner.Proofs.Expectation

namespace Reckoner

/-- The tokens are the beginning of some expression, or a whole one. -/
def Viable (α : Type) [Arithmetic α] (tokens : List Token) : Prop :=
  ∃ more, ∃ value : α, (Parser.ofTokens (tokens ++ more)).parse.result = .ok value

variable {α : Type} [Arithmetic α] {tokens : List Token}

namespace State

/-- Behind an operand, as many closing parentheses as there are open groups lead out of all of
them. -/
theorem reach_outside (outer : Nat) (groups : List (Group α)) (lhs : Formula α) :
    ∃ tokens folds formula, Reach ⟨outer, groups, .operator lhs⟩ tokens folds
      ⟨outer, [], .operator formula⟩ := by
  induction groups generalizing lhs with
  | nil => exact ⟨[], [], lhs, .start⟩
  | cons group groups ih =>
    have closing : Step ⟨outer, group :: groups, .operator lhs⟩ .closing _ _ := .closing
    obtain ⟨tokens, folds, formula, reach⟩ :=
      ih (group.slot.fill (signed group.negated lhs.evaluate))
    exact ⟨_, _, formula, closing.reach.trans reach⟩

/-- Wherever an operand is expected, a number will do. -/
theorem reach_operator {lexeme : String} {value : α} (read : Arithmetic.read? lexeme = some value)
    (state : State α) :
    ∃ tokens folds formula, Reach state tokens folds
      ⟨state.outer, state.groups, .operator formula⟩ := by
  obtain ⟨outer, groups, position⟩ := state
  cases position with
  | operator formula => exact ⟨[], [], formula, .start⟩
  | operand slot =>
    have number : Step ⟨outer, groups, .primary slot false⟩ (.number lexeme) _ _ := .number read
    exact ⟨_, _, _, number.reach⟩
  | signed slot =>
    have number : Step ⟨outer, groups, .primary slot true⟩ (.number lexeme) _ _ := .number read
    exact ⟨_, _, _, number.reach⟩

end State

/-- If any text is a number, the viable lists of tokens are those that are all taken: each state can
be led to the end of an expression. -/
theorem viable_iff_reach {lexeme : String} {value : α}
    (read : Arithmetic.read? lexeme = some value) :
    Viable α tokens ↔
      ∃ folds state, State.Reach (Parser.initial : State α) tokens folds state := by
  constructor
  · rintro ⟨more, value, parsed⟩
    rcases State.reach_or_stops (Parser.initial : State α) tokens with
      reach | ⟨before, token, rest, folds, state, rfl, reach, stops⟩
    · exact reach
    · obtain ⟨fault, error⟩ := Parser.parse_result_of_stops reach stops
      rw [List.append_assoc, List.cons_append, error] at parsed
      cases parsed
  · rintro ⟨folds, state, reach⟩
    obtain ⟨more, _, lhs, toOperator⟩ := State.reach_operator read state
    obtain ⟨closings, _, formula, toOutside⟩ := State.reach_outside state.outer state.groups lhs
    have inside : state.outer = 0 := reach.outer_eq
    have whole := (reach.trans toOperator).trans toOutside
    rw [inside] at whole
    have parsed := Parser.parse_result_of_reach whole []
    rw [List.append_nil, List.append_assoc] at parsed
    exact ⟨more ++ closings, formula.evaluate, parsed⟩

theorem not_viable_of_stops {token : Token} {folds : List (Fold α)} {state : State α}
    (reach : State.Reach (Parser.initial : State α) tokens folds state)
    (stops : state.Stops token) : ¬Viable α (tokens ++ [token]) := by
  rintro ⟨more, value, parsed⟩
  obtain ⟨fault, error⟩ := Parser.parse_result_of_stops reach stops
  rw [List.append_assoc, List.singleton_append, error] at parsed
  cases parsed

/-- A viable list of tokens that is no expression: the message tells which part is missing. -/
theorem parse_error_of_reach {folds : List (Fold α)} {state : State α} {fault : Fault}
    (reach : State.Reach (Parser.initial : State α) tokens folds state)
    (failed : (Parser.ofTokens tokens).parse.result = (.error fault : Except Fault α)) :
    fault.message = (expectation tokens).missing ∧
      (expectation tokens = .operator → tokens.count .closing < tokens.count .opening) := by
  have parsed := Parser.parse_result_of_reach reach []
  have count := reach.count_parentheses
  have inside : state.outer = 0 := reach.outer_eq
  rw [List.append_nil, failed, State.read] at parsed
  rw [reach.expectation_eq rfl]
  obtain ⟨outer, groups, position⟩ := state
  cases position with
  | operand slot =>
    cases slot <;> cases parsed <;> exact ⟨rfl, fun same => Expectation.noConfusion same⟩
  | signed slot =>
    cases parsed
    exact ⟨rfl, fun same => Expectation.noConfusion same⟩
  | operator lhs =>
    subst inside
    cases groups with
    | nil => cases parsed
    | cons group groups =>
      cases parsed
      refine ⟨rfl, fun _ => ?_⟩
      simp only [Parser.initial, List.length_nil, List.length_cons] at count
      omega

/-- The first token that is not taken decides on the error, by what is expected where it stands. -/
theorem parse_error_of_stops {token : Token} {folds : List (Fold α)} {state : State α}
    (reach : State.Reach (Parser.initial : State α) tokens folds state)
    (stops : state.Stops token) :
    ∃ fault : Fault,
      refusal? α (tokens.count .opening - tokens.count .closing) (expectation tokens) token =
        some fault.message ∧
      ∀ rest, (Parser.ofTokens (tokens ++ token :: rest)).parse.result =
        (.error fault : Except Fault α) := by
  have count := reach.count_parentheses
  simp only [Parser.initial, List.length_nil] at count
  have groups : tokens.count .opening - tokens.count .closing = state.groups.length := by omega
  rw [groups, reach.expectation_eq rfl]
  have answers := State.answers_refusal? (reach.outer_eq : state.outer = 0) token
  cases refused : refusal? α state.groups.length state.position.expectation token with
  | none =>
    rw [refused] at answers
    obtain ⟨after, fold, step⟩ := answers
    exact absurd step (stops after fold)
  | some message =>
    rw [refused] at answers
    obtain ⟨_, fault, rfl, error⟩ := answers
    refine ⟨fault, rfl, fun rest => ?_⟩
    rw [Parser.parse_result_of_reach reach, error]
    rfl

theorem missing_injective {first second : Expectation} (same : first.missing = second.missing) :
    first = second := by
  revert same
  cases first <;> cases second <;> decide

/-- An error is found as early as it can be. The tokens are the beginning of an expression, and the
message tells what is missing at their end; or there is a first token with which they cease to be
one. That token and what was expected in its place fix the message, and what follows has no part. -/
inductive EarliestError (tokens : List Token) (fault : Fault) : Prop
  | unfinished : Viable Float tokens →
      (∀ expected : Expectation,
        fault.message = expected.missing ↔ expectation tokens = expected) →
      (expectation tokens = .operator → tokens.count .closing < tokens.count .opening) →
      EarliestError tokens fault
  | refused (before : List Token) (token : Token) (rest : List Token) :
      tokens = before ++ token :: rest → Viable Float before → ¬Viable Float (before ++ [token]) →
      (∀ other, (Parser.ofTokens (before ++ token :: other)).parse.result =
        (.error fault : Except Fault Float)) →
      refusal? Float (before.count .opening - before.count .closing) (expectation before) token =
        some fault.message →
      EarliestError tokens fault

/-- Every error that reading a list of tokens ends with is found as early as it can be. -/
theorem parse_error_earliest {fault : Fault}
    (failed : (Parser.ofTokens tokens).parse.result = (.error fault : Except Fault Float)) :
    EarliestError tokens fault := by
  have zero : Arithmetic.read? "0" = some (Binary64.ofMagnitude false 0) := rfl
  rcases State.reach_or_stops (Parser.initial : State Float) tokens with
    ⟨folds, state, reach⟩ | ⟨before, token, rest, folds, state, rfl, reach, stops⟩
  · obtain ⟨message, grouped⟩ := parse_error_of_reach reach failed
    refine .unfinished ((viable_iff_reach zero).mpr ⟨folds, state, reach⟩) (fun expected => ?_)
      grouped
    rw [message]
    exact ⟨missing_injective, congrArg Expectation.missing⟩
  · obtain ⟨found, refused, error⟩ := parse_error_of_stops reach stops
    rw [error] at failed
    cases failed
    exact .refused before token rest rfl ((viable_iff_reach zero).mpr ⟨folds, state, reach⟩)
      (not_viable_of_stops reach stops) error refused

/-- The error in `(1*)2` is found at the closing parenthesis. -/
theorem parse_error_at_closing :
    (Parser.ofTokens [.opening, .number "1", .operator "*", .closing, .number "2"]).parse.result =
      (.error (.tokenForOperand .closing) : Except Fault Float) ∧
    EarliestError [.opening, .number "1", .operator "*", .closing, .number "2"]
      (.tokenForOperand .closing) :=
  ⟨rfl, parse_error_earliest rfl⟩

end Reckoner
