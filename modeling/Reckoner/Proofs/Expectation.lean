import Reckoner.Proofs.Reach

namespace Reckoner

/-- What is expected next: an expression, a right operand, an operand behind its minus sign, or an
operator. -/
inductive Expectation where
  | expression
  | operand
  | primary
  | operator
  deriving DecidableEq

/-- Whether an operand may end with the token. -/
def Token.endsOperand : Token → Bool
  | number _ | closing => true
  | operator _ | opening => false

/-- What is expected behind tokens that are given from the last. An operator joins two operands if
one ends before it, and otherwise it is the sign of the next one. -/
def expectationBehind : List Token → Expectation
  | [] | .opening :: _ => .expression
  | .number _ :: _ | .closing :: _ => .operator
  | .operator _ :: before => if before.head?.any Token.endsOperand then .operand else .primary

/-- What is expected behind a list of tokens. Its last two tokens tell. -/
def expectation (tokens : List Token) : Expectation :=
  expectationBehind tokens.reverse

/-- The message when the tokens end although something is expected. -/
def Expectation.missing : Expectation → String
  | expression => "Expected expression, found EOF"
  | operand => "Expected operand, found EOF"
  | primary => "Expected operand after `-`, found EOF"
  | operator => "Expected `)`, found EOF"

/-- The message for a token that cannot begin an operand. A sign is welcome if none stands there
yet. -/
def operandRefusal? (α : Type) [Arithmetic α] (signable : Bool) (groups : Nat) :
    Token → Option String
  | .number lexeme =>
    if (Arithmetic.read? lexeme : Option α).isSome then none
    else some s!"Invalid number literal `{lexeme}`"
  | .opening => if groups < 256 then none else some "Nesting too deep"
  | .operator symbol =>
    if !signable then some s!"Expected operand, found `{symbol}`"
    else if symbol = "-" then none
    else some s!"Expected operand, found operator `{symbol}`"
  | .closing => some "Expected operand, found `)`"

/-- The message for a token that cannot stand behind an operand. -/
def operatorRefusal? (groups : Nat) : Token → Option String
  | .number lexeme => some s!"Expected operator, found `{lexeme}`"
  | .opening => some "Expected operator, found `(`"
  | .operator symbol =>
    if symbol ∈ ["+", "-", "*", "/"] then none else some s!"Unknown operator `{symbol}`"
  | .closing => if 0 < groups then none else some "Unmatched `)`"

/-- The message for a token that is not as expected, inside this many open groups. -/
def refusal? (α : Type) [Arithmetic α] (groups : Nat) : Expectation → Token → Option String
  | .expression | .operand => operandRefusal? α true groups
  | .primary => operandRefusal? α false groups
  | .operator => operatorRefusal? groups

theorem endsOperand_head?_iff (tokens : List Token) :
    tokens.head?.any Token.endsOperand = true ↔ expectationBehind tokens = .operator := by
  rcases tokens with _ | ⟨_ | _ | _ | _, before⟩
  · decide
  · exact iff_of_true rfl rfl
  · simp only [expectationBehind, List.head?_cons, Option.any_some, Token.endsOperand]
    split <;> decide
  · simp [expectationBehind, Token.endsOperand]
  · exact iff_of_true rfl rfl

theorem expectationBehind_operator (symbol : String) (before : List Token) :
    expectationBehind (.operator symbol :: before) =
      if expectationBehind before = .operator then .operand else .primary := by
  by_cases joins : expectationBehind before = .operator
  · rw [expectationBehind, if_pos ((endsOperand_head?_iff _).mpr joins), if_pos joins]
  · rw [expectationBehind, if_neg (mt (endsOperand_head?_iff _).mp joins), if_neg joins]

theorem expectation_append (tokens : List Token) (token : Token) :
    expectation (tokens ++ [token]) =
      match token with
      | .opening => .expression
      | .number _ | .closing => .operator
      | .operator _ => if expectation tokens = .operator then .operand else .primary := by
  unfold expectation
  rw [List.reverse_append, List.reverse_singleton, List.singleton_append]
  cases token with
  | opening | closing | number _ => rfl
  | operator symbol => exact expectationBehind_operator symbol _

variable {α : Type}

/-- What is expected at a position of the reader. -/
def Position.expectation : Position α → Expectation
  | operand .first => .expression
  | operand (.after _ _) => .operand
  | signed _ => .primary
  | operator _ => .operator

variable [Arithmetic α]

/-- The reader's position is always the one that the tokens before it call for. -/
theorem State.Reach.expectation_eq {initial state : State α} {tokens : List Token}
    {folds : List (Fold α)} (reach : Reach initial tokens folds state)
    (fresh : initial.position.expectation = .expression) :
    expectation tokens = state.position.expectation := by
  induction reach with
  | start => exact fresh.symm
  | next _ step ih =>
    rw [expectation_append]
    cases step with
    | number _ | opening _ | closing => rfl
    | operator => simp only [ih, Position.expectation, if_true]
    | @sign _ _ slot => cases slot <;> simp [ih, Position.expectation]

namespace State

/-- What reading does with a token, told by its refusal: it goes on behind the token if there is
none, and ends with its message otherwise, whatever follows. -/
def Answers (state : State α) (token : Token) : Option String → Prop
  | none => ∃ after fold, Step state token after fold
  | some message => state.Stops token ∧ ∃ fault : Fault, fault.message = message ∧
      ∀ folds rest, (state.read .expression folds (token :: rest)).result = .error fault

theorem answers_of_refused {state : State α} {token : Token} {fault : Fault} {behind : Bool}
    (refused : state.take token = .refused fault behind) : Answers state token fault.message := by
  refine ⟨fun after fold step => ?_, fault, rfl, fun folds rest => ?_⟩
  · rw [step.take_eq] at refused
    cases refused
  · simp only [read, refused]

theorem answers_primary (groups : List (Group α)) (slot : Slot α) (negated : Bool) (token : Token) :
    Answers ⟨0, groups, .primary slot negated⟩ token
      (operandRefusal? α (!negated) groups.length token) := by
  cases token with
  | number lexeme =>
    cases read : (Arithmetic.read? lexeme : Option α) with
    | some value =>
      simp only [operandRefusal?, read]
      exact ⟨_, _, .number read⟩
    | none =>
      have refused : take ⟨0, groups, .primary slot negated⟩ (.number lexeme) =
          .refused (.invalidNumber lexeme) true := by
        rw [take_primary (by simp)]
        simp only [takeOperand, read]
      simp only [operandRefusal?, read]
      exact answers_of_refused refused
  | opening =>
    by_cases room : groups.length < 256
    · rw [operandRefusal?, if_pos room]
      exact ⟨_, _, .opening (by rwa [Nat.zero_add])⟩
    · have refused : take ⟨0, groups, .primary slot negated⟩ .opening =
          .refused .nestingTooDeep true := by
        rw [take_primary (by simp)]
        exact if_pos (by simpa [depth, nestingLimit] using room)
      rw [operandRefusal?, if_neg room]
      exact answers_of_refused refused
  | closing =>
    have refused : take ⟨0, groups, .primary slot negated⟩ .closing =
        .refused (.tokenForOperand .closing) true := by
      rw [take_primary (by simp)]
      rfl
    exact answers_of_refused refused
  | operator symbol =>
    cases negated with
    | true =>
      have refused : take ⟨0, groups, .signed slot⟩ (.operator symbol) =
          .refused (.tokenForOperand (.operator symbol)) true := rfl
      exact answers_of_refused refused
    | false =>
      by_cases minus : symbol = "-"
      · subst minus
        exact ⟨_, _, .sign⟩
      · have other : Operation.ofSymbol? symbol ≠ some .sub :=
          fun named => minus (Operation.ofSymbol?_eq_some_iff.mp named)
        have refused : take ⟨0, groups, .operand slot⟩ (.operator symbol) =
            .refused (.operatorForOperand symbol) false :=
          if_neg other
        simp only [operandRefusal?, minus, if_false]
        exact answers_of_refused refused

theorem ofSymbol?_isSome_iff {symbol : String} :
    (∃ op, Operation.ofSymbol? symbol = some op) ↔ symbol ∈ ["+", "-", "*", "/"] := by
  simp only [Operation.ofSymbol?_eq_some_iff, List.mem_cons, List.not_mem_nil, or_false]
  constructor
  · rintro ⟨op, rfl⟩
    cases op <;> decide
  · rintro (rfl | rfl | rfl | rfl)
    exacts [⟨.add, rfl⟩, ⟨.sub, rfl⟩, ⟨.mul, rfl⟩, ⟨.div, rfl⟩]

theorem answers_operator (groups : List (Group α)) (lhs : Formula α) (token : Token) :
    Answers ⟨0, groups, .operator lhs⟩ token (operatorRefusal? groups.length token) := by
  cases token with
  | number lexeme =>
    have refused : take ⟨0, groups, .operator lhs⟩ (.number lexeme) =
        .refused (.tokenForOperator (.number lexeme)) true := rfl
    exact answers_of_refused refused
  | opening =>
    have refused : take ⟨0, groups, .operator lhs⟩ .opening =
        .refused (.tokenForOperator .opening) true := rfl
    exact answers_of_refused refused
  | operator symbol =>
    by_cases known : symbol ∈ ["+", "-", "*", "/"]
    · obtain ⟨op, named⟩ := ofSymbol?_isSome_iff.mpr known
      rw [operatorRefusal?, if_pos known, Operation.ofSymbol?_eq_some_iff.mp named]
      exact ⟨_, _, .operator⟩
    · cases named : Operation.ofSymbol? symbol with
      | some op => exact absurd (ofSymbol?_isSome_iff.mp ⟨op, named⟩) known
      | none =>
        have refused : take ⟨0, groups, .operator lhs⟩ (.operator symbol) =
            .refused (.unknownOperator symbol) true := by
          simp only [take, takeOperator, named]
        rw [operatorRefusal?, if_neg known]
        exact answers_of_refused refused
  | closing =>
    cases groups with
    | cons group groups => exact ⟨_, _, .closing⟩
    | nil =>
      refine ⟨fun after fold step => ?_, .unmatchedClosing, rfl, fun folds rest => rfl⟩
      cases step.take_eq

/-- The reader goes on behind a token, or refuses it, by what is expected and by the number of open
groups alone. -/
theorem answers_refusal? {state : State α} (inside : state.outer = 0) (token : Token) :
    state.Answers token (refusal? α state.groups.length state.position.expectation token) := by
  obtain ⟨outer, groups, position⟩ := state
  subst inside
  cases position with
  | operator lhs => exact answers_operator groups lhs token
  | signed slot => exact answers_primary groups slot true token
  | operand slot => cases slot <;> exact answers_primary groups _ false token

end State

end Reckoner
