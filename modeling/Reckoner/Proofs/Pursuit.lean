import Reckoner.Proofs.Acceptance

namespace Reckoner

/-- Reading has come to the end of an operand when it stands behind a formula outside all groups. -/
theorem State.eq_of_reached? {α : Type} {state : State α} {formula : Formula α}
    (reached : Goal.operand.reached? state = some formula) :
    state = ⟨state.outer, [], .operator formula⟩ := by
  obtain ⟨outer, groups, position⟩ := state
  cases groups with
  | cons group groups => cases reached
  | nil =>
    cases position with
    | operator lhs =>
      cases reached
      rfl
    | operand slot => cases reached
    | signed slot => cases reached

variable {α : Type} [Arithmetic α] {goal : Goal}

/-- The token that a fault was found at, if it has been taken. -/
def Fault.taken? : Fault → Option Token
  | missingExpression | missingOperand | missingOperandAfterMinus | missingClosing => none
  | operatorForOperand _ => none
  | unmatchedClosing => some .closing
  | tokenForOperand token | tokenForOperator token => some token
  | unknownOperator symbol => some (.operator symbol)
  | invalidNumber lexeme => some (.number lexeme)
  | nestingTooDeep => some .opening

namespace State

/-- Tokens that are taken on the way to a goal: in front of each of them it has not been reached. -/
inductive Pursuit (goal : Goal) : State α → List Token → List (Fold α) → State α → Prop
  | start {state} : Pursuit goal state [] [] state
  | next {state token middle fold tokens folds last} : goal.reached? state = none →
      Step state token middle fold → Pursuit goal middle tokens folds last →
      Pursuit goal state (token :: tokens) (fold.toList ++ folds) last

/-- How a reading ends in a state, with the tokens that it leaves unread: at its goal, because the
tokens have run out, or at a token that does not lead onward. -/
inductive Halts (goal : Goal) (state : State α) :
    List Token → Except Fault (Formula α) → List Token → Prop
  | reached {formula tokens} : goal.reached? state = some formula →
      Halts goal state tokens (.ok formula) tokens
  | exhausted : goal.reached? state = none → Halts goal state [] state.atEnd []
  | outward {token formula rest} : goal.reached? state = none →
      state.take token = .outward formula →
      Halts goal state (token :: rest)
        (if state.outer = 0 then .error .unmatchedClosing else .ok formula) rest
  | refused {token fault taken rest} : goal.reached? state = none →
      state.take token = .refused fault taken →
      Halts goal state (token :: rest) (.error fault) (if taken then rest else token :: rest)

theorem Pursuit.reach {state last : State α} {tokens : List Token} {made : List (Fold α)}
    (pursuit : Pursuit goal state tokens made last) : Reach state tokens made last := by
  induction pursuit with
  | start => exact .start
  | next _ step _ ih => exact step.reach.trans ih

/-- Whatever the tokens are, reading goes after its goal for some of them and then comes to an
end. -/
theorem exists_pursuit (goal : Goal) (state : State α) (tokens : List Token) :
    ∃ before behind made last result unread, tokens = before ++ behind ∧
      Pursuit goal state before made last ∧ last.Halts goal behind result unread := by
  induction tokens generalizing state with
  | nil =>
    cases unreached : goal.reached? state with
    | some formula => exact ⟨[], [], [], state, _, _, rfl, .start, .reached unreached⟩
    | none => exact ⟨[], [], [], state, _, _, rfl, .start, .exhausted unreached⟩
  | cons token tokens ih =>
    cases unreached : goal.reached? state with
    | some formula => exact ⟨[], _, [], state, _, _, rfl, .start, .reached unreached⟩
    | none =>
      cases taken : state.take token with
      | outward formula => exact ⟨[], _, [], state, _, _, rfl, .start, .outward unreached taken⟩
      | refused fault _ => exact ⟨[], _, [], state, _, _, rfl, .start, .refused unreached taken⟩
      | onward middle fold =>
        have step := take_eq_onward_iff.mp taken
        obtain ⟨before, behind, made, last, result, unread, rfl, pursuit, halts⟩ := ih middle
        exact ⟨token :: before, behind, _, last, result, unread, rfl, .next unreached step pursuit,
          halts⟩

/-- What a reading comes to is what it ends with, behind the folds that it made on the way. -/
theorem Pursuit.read_eq {state last : State α} {before behind unread : List Token}
    {made : List (Fold α)} {result : Except Fault (Formula α)}
    (pursuit : Pursuit goal state before made last) (halts : last.Halts goal behind result unread)
    (unreached : goal.reached? state = none) (early : List (Fold α)) :
    state.read goal early (before ++ behind) =
      ⟨result, ⟨unread, last.depth⟩, early.reverse ++ made⟩ := by
  induction pursuit generalizing early with
  | start =>
    rw [List.nil_append, List.append_nil]
    cases halts with
    | reached reached =>
      rw [unreached] at reached
      cases reached
    | exhausted _ => rfl
    | outward _ taken => simp only [read, taken]
    | refused _ taken => simp only [read, taken]
  | @next state token middle fold tokens folds last _ step rest ih =>
    have later := ih halts
    simp only [List.cons_append, read, step.take_eq]
    cases reached : goal.reached? middle with
    | none =>
      rw [later reached, List.reverse_append, List.append_assoc]
      cases fold <;> rfl
    | some formula =>
      -- The goal ends the pursuit, so there are no tokens behind this one.
      cases rest with
      | next unreached' => rw [reached] at unreached'; cases unreached'
      | start =>
        cases halts with
        | reached same =>
          rw [reached] at same
          cases same
          rw [List.reverse_append, List.append_nil]
          cases fold <;> rfl
        | exhausted unreached' => rw [reached] at unreached'; cases unreached'
        | outward unreached' => rw [reached] at unreached'; cases unreached'
        | refused unreached' => rw [reached] at unreached'; cases unreached'

/-- A primary is no place to end at. -/
theorem takeOperand_ne_outward (state : State α) (slot : Slot α) (negated : Bool) (token : Token)
    (formula : Formula α) : state.takeOperand slot negated token ≠ .outward formula := by
  intro taken
  cases token with
  | number lexeme =>
    simp only [takeOperand] at taken
    split at taken <;> cases taken
  | opening =>
    simp only [takeOperand] at taken
    split at taken <;> cases taken
  | operator symbol => cases taken
  | closing => cases taken

/-- Only a closing parenthesis leads outward, from behind a formula that stands in no open group. -/
theorem take_eq_outward {state : State α} {token : Token} {formula : Formula α}
    (taken : state.take token = .outward formula) :
    token = .closing ∧ state = ⟨state.outer, [], .operator formula⟩ := by
  obtain ⟨outer, groups, position⟩ := state
  cases position with
  | signed slot => exact (takeOperand_ne_outward _ slot true token formula taken).elim
  | operand slot =>
    have inside := takeOperand_ne_outward ⟨outer, groups, .operand slot⟩ slot false token formula
    cases token with
    | operator symbol =>
      simp only [take] at taken
      split at taken <;> cases taken
    | number lexeme => exact (inside taken).elim
    | opening => exact (inside taken).elim
    | closing => exact (inside taken).elim
  | operator lhs =>
    cases token with
    | operator symbol =>
      simp only [take, takeOperator] at taken
      split at taken <;> cases taken
    | number lexeme => cases taken
    | opening => cases taken
    | closing =>
      cases groups with
      | cons group groups => cases taken
      | nil =>
        cases taken
        exact ⟨rfl, rfl⟩

theorem takeOperand_taken? {state : State α} {slot : Slot α} {negated taken : Bool} {token : Token}
    {fault : Fault} (refused : state.takeOperand slot negated token = .refused fault taken) :
    fault.taken? = some token ∧ taken = true := by
  cases token with
  | number lexeme =>
    simp only [takeOperand] at refused
    split at refused
    · cases refused
    · cases refused
      exact ⟨rfl, rfl⟩
  | opening =>
    simp only [takeOperand] at refused
    split at refused
    · cases refused
      exact ⟨rfl, rfl⟩
    · cases refused
  | operator symbol =>
    cases refused
    exact ⟨rfl, rfl⟩
  | closing =>
    cases refused
    exact ⟨rfl, rfl⟩

/-- The fault tells whether the token that was refused has been taken. -/
theorem take_taken? {state : State α} {token : Token} {fault : Fault} {taken : Bool}
    (refused : state.take token = .refused fault taken) :
    fault.taken? = if taken then some token else none := by
  have primary (slot : Slot α) (negated : Bool)
      (refused : state.takeOperand slot negated token = .refused fault taken) :
      fault.taken? = if taken then some token else none := by
    obtain ⟨found, rfl⟩ := takeOperand_taken? refused
    exact found
  obtain ⟨outer, groups, position⟩ := state
  cases position with
  | signed slot => exact primary slot true refused
  | operand slot =>
    cases token with
    | operator symbol =>
      simp only [take] at refused
      split at refused
      · cases refused
      · cases refused
        rfl
    | number lexeme => exact primary slot false refused
    | opening => exact primary slot false refused
    | closing => exact primary slot false refused
  | operator lhs =>
    cases token with
    | operator symbol =>
      simp only [take, takeOperator] at refused
      split at refused
      · cases refused
      · cases refused
        rfl
    | number lexeme =>
      cases refused
      rfl
    | opening =>
      cases refused
      rfl
    | closing => cases groups <;> cases refused

/-- Outside all groups only an operator leads onward from behind a formula. -/
theorem Step.of_operator {outer : Nat} {lhs : Formula α} {token : Token} {next : State α}
    {fold : Option (Fold α)} (step : Step ⟨outer, [], .operator lhs⟩ token next fold) :
    ∃ op : Operation, token = .operator (String.singleton op.symbol) ∧
      next = ⟨outer, [], .operand (.after lhs op)⟩ ∧ fold = none := by
  generalize same : (⟨outer, [], .operator lhs⟩ : State α) = state at step
  cases step with
  | sign => cases same
  | @number _ _ _ negated => cases negated <;> cases same
  | @opening _ _ _ negated => cases negated <;> cases same
  | @operator _ _ _ op =>
    cases same
    exact ⟨op, rfl, rfl, rfl⟩
  | closing => cases same

section Halts

variable {state : State α} {tokens unread : List Token} {result : Except Fault (Formula α)}
  {fault : Fault}

/-- Where reading halts in front of its goal, no token leads onward. -/
theorem Halts.stops (halts : state.Halts goal tokens result unread)
    (unreached : goal.reached? state = none) : ∀ token ∈ tokens.head?, state.Stops token := by
  rintro token first after fold step
  cases halts with
  | reached reached =>
    rw [unreached] at reached
    cases reached
  | exhausted _ => cases first
  | outward _ taken =>
    cases first
    cases step.take_eq.symm.trans taken
  | refused _ taken =>
    cases first
    cases step.take_eq.symm.trans taken

/-- Behind a fault nothing is missing but the token that it was found at. -/
theorem Halts.error (halts : state.Halts goal tokens (.error fault) unread) :
    tokens = fault.taken?.toList ++ unread := by
  generalize failed : Except.error fault = result at halts
  cases halts with
  | reached _ => cases failed
  | exhausted _ =>
    obtain ⟨outer, groups, position⟩ := state
    cases position with
    | operand slot => cases slot <;> cases failed <;> rfl
    | signed slot =>
      cases failed
      rfl
    | operator lhs =>
      simp only [atEnd] at failed
      split at failed <;> cases failed
      rfl
  | outward _ taken =>
    split at failed
    · cases failed
      rw [(take_eq_outward taken).1]
      rfl
    · cases failed
  | @refused token _ taken _ _ refused =>
    cases failed
    rw [take_taken? refused]
    cases taken <;> rfl

/-- Reading an operand goes well only if it comes to the end of one. -/
theorem Halts.operand_ok {formula : Formula α}
    (halts : state.Halts .operand tokens (.ok formula) unread) :
    state = ⟨state.outer, [], .operator formula⟩ ∧ unread = tokens := by
  generalize ok : Except.ok formula = result at halts
  cases halts with
  | reached reached =>
    cases ok
    exact ⟨eq_of_reached? reached, rfl⟩
  | exhausted unreached =>
    rw [atEnd_eq_ok ok.symm] at unreached
    cases unreached
  | outward unreached taken =>
    rw [(take_eq_outward taken).2] at unreached
    cases unreached
  | refused _ _ => cases ok

end Halts

end State

namespace Parser

/-- Reading an expression goes over some tokens and halts. -/
theorem exists_parse_eq (α : Type) [Arithmetic α] (parser : Parser) :
    ∃ before behind folds state result unread, parser.unread = before ++ behind ∧
      State.Reach (⟨parser.depth, [], .operand .first⟩ : State α) before folds state ∧
      state.Halts .expression behind result unread ∧
      parser.parse = ⟨result.map Formula.evaluate, ⟨unread, state.depth⟩, folds⟩ := by
  obtain ⟨tokens, depth⟩ := parser
  obtain ⟨before, behind, made, last, result, unread, rfl, pursuit, halts⟩ :=
    State.exists_pursuit .expression (⟨depth, [], .operand .first⟩ : State α) tokens
  refine ⟨before, behind, made, last, result, unread, rfl, pursuit.reach, halts, ?_⟩
  rw [parse, pursuit.read_eq halts rfl []]
  rfl

/-- What an extension can come to. The operand behind an operator is read as far as it goes; with no
operator there is nothing to read. -/
inductive Extends (parser : Parser) (lhs : Formula α) : Reading α (Extension α) → Prop
  | ended : parser.unread = [] → Extends parser lhs ⟨.ok (.ended lhs), parser, []⟩
  | closed {rest} : parser.unread = .closing :: rest →
      Extends parser lhs ⟨.ok (.closed lhs), ⟨rest, parser.depth⟩, []⟩
  | operand {op before behind made last result unread} :
      parser.unread = .operator (String.singleton op.symbol) :: (before ++ behind) →
      State.Pursuit .operand ⟨parser.depth, [], .operand (.after lhs op)⟩ before made last →
      last.Halts .operand behind result unread →
      Extends parser lhs ⟨result.map .continued, ⟨unread, last.depth⟩, made⟩
  | refused {fault unread} : parser.unread = fault.taken?.toList ++ unread →
      Extends parser lhs ⟨.error fault, ⟨unread, parser.depth⟩, []⟩

theorem extend_extends (parser : Parser) (lhs : Formula α) :
    parser.Extends lhs (parser.extend lhs) := by
  obtain ⟨tokens, depth⟩ := parser
  cases tokens with
  | nil => exact .ended rfl
  | cons token rest =>
    cases taken : State.take ⟨depth, [], .operator lhs⟩ token with
    | outward formula =>
      obtain ⟨rfl, same⟩ := State.take_eq_outward taken
      cases same
      exact .closed rfl
    | refused fault behind =>
      simp only [extend, taken]
      refine .refused ?_
      rw [State.take_taken? taken]
      cases behind <;> rfl
    | onward next fold =>
      obtain ⟨op, rfl, rfl, rfl⟩ := (State.take_eq_onward_iff.mp taken).of_operator
      obtain ⟨before, behind, made, last, result, unread, rfl, pursuit, halts⟩ :=
        State.exists_pursuit .operand ⟨depth, [], .operand (.after lhs op)⟩ rest
      simp only [extend, taken, Option.toList_none, pursuit.read_eq halts rfl]
      exact .operand rfl pursuit halts

end Parser

end Reckoner
