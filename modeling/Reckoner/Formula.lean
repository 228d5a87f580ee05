import Reckoner.Operation

namespace Reckoner

/-- A number, or an operation between two formulas. Nothing is asked of the operations' places:
any of them may stand above any other. -/
inductive Formula (α : Type) where
  | literal (value : α)
  | binary (lhs : Formula α) (op : Operation) (rhs : Formula α)
  deriving DecidableEq

namespace Formula

variable {α : Type} [Arithmetic α]

/-- Applies the operations that are `pending` above a formula to its value, the innermost first.
Long sums grow down the left side, so that side is walked by a tail call. -/
def evaluateUnder (pending : List (Operation × α)) : Formula α → α
  | literal value => pending.foldl (fun value next => next.1.apply value next.2) value
  | binary lhs op rhs => lhs.evaluateUnder ((op, rhs.evaluateUnder []) :: pending)

def evaluate (formula : Formula α) : α :=
  formula.evaluateUnder []

/-- Replaces the number at the end of the right spine by the result of `op` on it and `x`. -/
def applyRightmost (op : Operation) (x : α) : Formula α → Formula α
  | literal value => literal (op.apply value x)
  | binary lhs top rhs => binary lhs top (rhs.applyRightmost op x)

end Formula

end Reckoner
