import Reckoner.Parser
import Reckoner.Proofs.Grammar

namespace Reckoner

variable {α : Type}

/-- The position in front of a primary, behind its minus sign if it has one. -/
def Position.primary (slot : Slot α) (negated : Bool) : Position α :=
  if negated then .signed slot else .operand slot

namespace State

/-- The five ways in which a token is taken and reading goes on behind it. -/
inductive Step [Arithmetic α] : State α → Token → State α → Option (Fold α) → Prop
  | sign {outer groups slot} :
      Step ⟨outer, groups, .operand slot⟩ (.operator "-") ⟨outer, groups, .signed slot⟩ none
  | number {outer groups slot negated lexeme value} : Arithmetic.read? lexeme = some value →
      Step ⟨outer, groups, .primary slot negated⟩ (.number lexeme)
        ⟨outer, groups, .operator (slot.fill (signed negated value))⟩
        (slot.fold? (signed negated value))
  | opening {outer groups slot negated} : outer + groups.length < nestingLimit →
      Step ⟨outer, groups, .primary slot negated⟩ .opening
        ⟨outer, ⟨slot, negated⟩ :: groups, .operand .first⟩ none
  | operator {outer groups lhs op} :
      Step ⟨outer, groups, .operator lhs⟩ (.operator (String.singleton op.symbol))
        ⟨outer, groups, .operand (.after lhs op)⟩ none
  | closing {outer groups slot negated lhs} :
      Step ⟨outer, ⟨slot, negated⟩ :: groups, .operator lhs⟩ .closing
        ⟨outer, groups, .operator (slot.fill (signed negated lhs.evaluate))⟩
        (slot.fold? (signed negated lhs.evaluate))

variable [Arithmetic α]

theorem take_sign {outer : Nat} {groups : List (Group α)} {slot : Slot α} :
    take ⟨outer, groups, .operand slot⟩ (.operator "-") =
      .onward ⟨outer, groups, .signed slot⟩ none := by
  have minus : Operation.ofSymbol? "-" = some .sub := Operation.ofSymbol?_eq_some_iff.mpr rfl
  simp only [take, minus, if_true]

/-- A primary is taken in the same way with and without a sign before it. -/
theorem take_primary {outer : Nat} {groups : List (Group α)} {slot : Slot α} {negated : Bool}
    {token : Token} (primary : negated = false → ∀ symbol, token ≠ .operator symbol) :
    take ⟨outer, groups, .primary slot negated⟩ token =
      takeOperand ⟨outer, groups, .primary slot negated⟩ slot negated token := by
  cases negated with
  | true => rfl
  | false =>
    cases token with
    | operator symbol => exact absurd rfl (primary rfl symbol)
    | number lexeme => rfl
    | opening => rfl
    | closing => rfl

theorem Step.take_eq {state after : State α} {token : Token} {fold : Option (Fold α)}
    (step : Step state token after fold) : state.take token = .onward after fold := by
  cases step with
  | sign => exact take_sign
  | number read =>
    rw [take_primary (by simp)]
    simp only [takeOperand, read]
    rfl
  | opening below =>
    rw [take_primary (by simp)]
    exact if_neg (Nat.not_le.mpr below)
  | @operator _ _ _ op =>
    simp only [take, takeOperator, Operation.ofSymbol?_eq_some_iff.mpr rfl]
  | closing => rfl

theorem takeOperand_onward {state after : State α} {slot : Slot α} (negated : Bool) {token : Token}
    {fold : Option (Fold α)} (position : state.position = .primary slot negated)
    (taken : state.takeOperand slot negated token = .onward after fold) :
    Step state token after fold := by
  obtain ⟨outer, groups, _⟩ := state
  subst position
  cases token with
  | number lexeme =>
    simp only [takeOperand] at taken
    split at taken
    · rename_i value read
      cases taken
      exact .number read
    · cases taken
  | opening =>
    simp only [takeOperand] at taken
    split at taken
    · cases taken
    · rename_i below
      cases taken
      exact .opening (Nat.not_le.mp below)
  | operator symbol => cases taken
  | closing => cases taken

theorem takeOperator_onward {state after : State α} {lhs : Formula α} {token : Token}
    {fold : Option (Fold α)} (position : state.position = .operator lhs)
    (taken : state.takeOperator lhs token = .onward after fold) :
    Step state token after fold := by
  obtain ⟨outer, groups, _⟩ := state
  subst position
  cases token with
  | number lexeme => cases taken
  | opening => cases taken
  | operator symbol =>
    simp only [takeOperator] at taken
    split at taken
    · rename_i op named
      cases taken
      rw [Operation.ofSymbol?_eq_some_iff.mp named]
      exact .operator
    · cases taken
  | closing =>
    cases groups with
    | nil => cases taken
    | cons group groups =>
      cases taken
      exact .closing

/-- Taking a token leads onward in these ways and no others. -/
theorem take_eq_onward_iff {state after : State α} {token : Token} {fold : Option (Fold α)} :
    state.take token = .onward after fold ↔ Step state token after fold := by
  refine ⟨fun taken => ?_, Step.take_eq⟩
  obtain ⟨outer, groups, position⟩ := state
  cases position with
  | operator lhs => exact takeOperator_onward rfl taken
  | signed slot => exact takeOperand_onward true rfl taken
  | operand slot =>
    cases token with
    | operator symbol =>
      simp only [take] at taken
      split at taken
      · rename_i minus
        cases taken
        rw [Operation.ofSymbol?_eq_some_iff.mp minus]
        exact .sign
      · cases taken
    | number lexeme => exact takeOperand_onward false rfl taken
    | opening => exact takeOperand_onward false rfl taken
    | closing => exact takeOperand_onward false rfl taken

end State

end Reckoner
