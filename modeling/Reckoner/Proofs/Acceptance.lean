import Reckoner.Proofs.Soundness

namespace Reckoner

variable {α : Type}

namespace State

/-- Behind a token that leads no further there is nothing but an error. The token and the state fix
which one it is; what follows the token is never looked at. -/
theorem Stops.error [Arithmetic α] {state : State α} {token : Token} (stops : state.Stops token)
    (inside : state.outer = 0) :
    ∃ fault, ∀ folds rest, (state.read .expression folds (token :: rest)).result = .error fault := by
  cases taken : state.take token with
  | onward after fold => exact absurd (take_eq_onward_iff.mp taken) (stops after fold)
  | outward formula =>
    refine ⟨.unmatchedClosing, fun folds rest => ?_⟩
    simp only [read, taken, inside, if_true]
  | refused fault behind =>
    refine ⟨fault, fun folds rest => ?_⟩
    simp only [read, taken]

/-- The tokens may end only behind an operand and outside all groups. -/
theorem atEnd_eq_ok {state : State α} {formula : Formula α} (ended : state.atEnd = .ok formula) :
    state = ⟨0, [], .operator formula⟩ := by
  obtain ⟨outer, groups, position⟩ := state
  cases position with
  | operand slot => cases slot <;> cases ended
  | signed slot => cases ended
  | operator lhs =>
    by_cases outside : outer + groups.length = 0
    · have all : groups = [] := List.length_eq_zero_iff.mp (by omega)
      have none : outer = 0 := by omega
      subst all none
      cases ended
      rfl
    · have open' := (if_neg outside).symm.trans ended
      cases open'

end State

namespace Parser

variable [Arithmetic α]

/-- The state in which an expression begins that has nothing around it. -/
def initial : State α :=
  ⟨0, [], .operand .first⟩

theorem parse_result_of_reach {tokens : List Token} {folds : List (Fold α)} {state : State α}
    (reach : State.Reach initial tokens folds state) (more : List Token) :
    (ofTokens (tokens ++ more)).parse.result =
      (state.read .expression folds.reverse more).result.map Formula.evaluate := by
  have read := reach.read_append [] more
  rw [List.append_nil] at read
  exact congrArg (fun reading => reading.result.map Formula.evaluate) read

theorem parse_result_of_stops {before : List Token} {token : Token} {folds : List (Fold α)}
    {state : State α} (reach : State.Reach initial before folds state)
    (stops : state.Stops token) :
    ∃ fault, ∀ rest, (ofTokens (before ++ token :: rest)).parse.result =
      (.error fault : Except Fault α) := by
  obtain ⟨fault, error⟩ := stops.error (reach.outer_eq.trans rfl)
  refine ⟨fault, fun rest => ?_⟩
  rw [parse_result_of_reach reach, error]
  rfl

theorem derives_of_parse_result_eq_ok {tokens : List Token} {value : α}
    (parsed : (ofTokens tokens).parse.result = .ok value) :
    Derives .expression nestingLimit tokens value := by
  rcases State.reach_or_stops (initial : State α) tokens with
    ⟨folds, state, reach⟩ | ⟨before, token, rest, folds, state, rfl, reach, stops⟩
  · have read := parse_result_of_reach reach []
    rw [List.append_nil, parsed] at read
    cases ended : state.atEnd with
    | error fault =>
      simp only [State.read, ended] at read
      cases read
    | ok formula =>
      simp only [State.read, ended] at read
      cases read
      cases State.atEnd_eq_ok ended
      exact reach.derives
  · obtain ⟨fault, error⟩ := parse_result_of_stops reach stops
    rw [error rest] at parsed
    cases parsed

/-- An expression is taken as a whole, also in groups that are left open around it. -/
theorem exists_reach_of_derives (depth : Nat) {tokens : List Token} {value : α}
    (derives : Derives .expression (nestingLimit - depth) tokens value) :
    ∃ (formula : Formula α) (folds : List (Fold α)), formula.evaluate = value ∧
      State.Reach ⟨depth, [], .operand .first⟩ tokens folds ⟨depth, [], .operator formula⟩ := by
  obtain ⟨formula, evaluates, folds, reach⟩ := derives.isRead [] (Nat.le_refl _)
  exact ⟨formula, folds, evaluates, reach⟩

theorem parse_result_of_derives {tokens : List Token} {value : α}
    (derives : Derives .expression nestingLimit tokens value) :
    (ofTokens tokens).parse.result = .ok value := by
  obtain ⟨formula, folds, rfl, reach⟩ := exists_reach_of_derives 0 derives
  have read := parse_result_of_reach reach []
  rw [List.append_nil] at read
  rw [read]
  rfl

/-- A list of tokens has a value exactly when it is an expression as a whole, with groups at most 256
deep, and it is the value of the expression: folding as the tokens come gives what the grammar gives,
whatever the operations return. -/
theorem parse_result_eq_ok_iff (tokens : List Token) (value : α) :
    (ofTokens tokens).parse.result = .ok value ↔ Derives .expression 256 tokens value :=
  ⟨derives_of_parse_result_eq_ok, parse_result_of_derives⟩

end Parser

end Reckoner
