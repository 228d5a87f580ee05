import Reckoner.Formula

namespace Reckoner.Formula

variable {α : Type} [Arithmetic α]

/-- What is pending above a formula is applied to its value, whatever its shape. -/
theorem evaluateUnder_eq_foldl (pending : List (Operation × α)) (formula : Formula α) :
    formula.evaluateUnder pending =
      pending.foldl (fun value next => next.1.apply value next.2) formula.evaluate := by
  induction formula generalizing pending with
  | literal value => rfl
  | binary lhs op rhs left right =>
    simp only [evaluate, evaluateUnder]
    rw [left, left, List.foldl_cons, List.foldl_cons, List.foldl_nil]

@[simp] theorem evaluate_literal (value : α) : (literal value).evaluate = value :=
  rfl

@[simp] theorem evaluate_binary (lhs : Formula α) (op : Operation) (rhs : Formula α) :
    (binary lhs op rhs).evaluate = op.apply lhs.evaluate rhs.evaluate := by
  simp only [evaluate, evaluateUnder]
  rw [evaluateUnder_eq_foldl, List.foldl_cons, List.foldl_nil]
  rfl

/-- What a formula comes to, told by its structure alone. -/
def value : Formula α → α
  | literal value => value
  | binary lhs op rhs => op.apply lhs.value rhs.value

/-- Walks down the left side of a formula to the number at its end. The operations that are passed
are put on a stack with their right operands. -/
def descend (pending : List (Operation × Formula α)) :
    Formula α → α × List (Operation × Formula α)
  | literal value => (value, pending)
  | binary lhs op rhs => lhs.descend ((op, rhs) :: pending)

/-- Applies the operations on a stack to a number, with the right operands evaluated one by one. -/
def unwind (walked : α × List (Operation × Formula α)) : α :=
  walked.2.foldl (fun value next => next.1.apply value next.2.evaluate) walked.1

theorem evaluate_value (formula : Formula α) : formula.evaluate = formula.value := by
  induction formula with
  | literal value => rfl
  | binary lhs op rhs left right => rw [evaluate_binary, value, left, right]

/-- At every moment of the walk, what is still below the stack stands for its value. -/
theorem unwind_descend (pending : List (Operation × Formula α)) (formula : Formula α) :
    unwind (formula.descend pending) = unwind (formula.value, pending) := by
  induction formula generalizing pending with
  | literal value => rfl
  | binary lhs op rhs left _ =>
    rw [descend, left, value, ← evaluate_value rhs]
    rfl

/-- Evaluating is walking down the left side and then applying the operations from the innermost
outwards, and it comes to the value of the formula. No law of the operations is used: each of them
is applied to the same two numbers. -/
theorem evaluate_unwinds (formula : Formula α) :
    formula.evaluate = unwind (formula.descend []) ∧ formula.evaluate = formula.value ∧
      ∀ pending, unwind (formula.descend pending) =
        pending.foldl (fun value next => next.1.apply value next.2.value) formula.value := by
  refine ⟨?_, formula.evaluate_value, fun pending => ?_⟩
  · rw [unwind_descend, evaluate_value]
    rfl
  · rw [unwind_descend]
    simp only [unwind, evaluate_value]

end Reckoner.Formula
