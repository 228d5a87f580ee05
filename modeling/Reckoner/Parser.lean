import Reckoner.Parser.State

namespace Reckoner

/-- The tokens that are still to be read, and how many groups are open around them. A failed
reading leaves the groups open that it was in. -/
structure Parser where
  unread : List Token
  depth : Nat := 0

/-- What a reading came to, the parser as it left it, and the folds it made, in order. -/
structure Reading (α β : Type) where
  result : Except Fault β
  parser : Parser
  folds : List (Fold α)

def Reading.map {α β γ : Type} (f : β → γ) (reading : Reading α β) : Reading α γ :=
  { reading with result := reading.result.map f }

/-- How far a reading goes: to the end of one operand, or to the end of the expression. -/
inductive Goal where
  | operand
  | expression
  deriving DecidableEq

/-- The formula that a reading ends with, if its goal is reached in this state. The end of an
expression is not seen before the token after it. -/
def Goal.reached? {α : Type} (goal : Goal) (state : State α) : Option (Formula α) :=
  match goal, state.groups, state.position with
  | .operand, [], .operator formula => some formula
  | _, _, _ => none

/-- How a formula goes on: by an operator and its right operand, not at all because the tokens have
run out, or not at all because its group is closed. -/
inductive Extension (α : Type) where
  | continued (formula : Formula α)
  | ended (formula : Formula α)
  | closed (formula : Formula α)
  deriving DecidableEq

variable {α : Type} [Arithmetic α]

/-- Takes tokens until the goal is reached or a token is refused. The folds made so far are given
from the latest. -/
def State.read (goal : Goal) (state : State α) (folds : List (Fold α)) :
    List Token → Reading α (Formula α)
  | [] => ⟨state.atEnd, ⟨[], state.depth⟩, folds.reverse⟩
  | token :: rest =>
    match state.take token with
    | .onward next fold =>
      match goal.reached? next with
      | some formula => ⟨.ok formula, ⟨rest, next.depth⟩, (fold.toList ++ folds).reverse⟩
      | none => next.read goal (fold.toList ++ folds) rest
    | .outward formula =>
      let result := if state.outer = 0 then .error .unmatchedClosing else .ok formula
      ⟨result, ⟨rest, state.depth⟩, folds.reverse⟩
    | .refused fault taken =>
      ⟨.error fault, ⟨if taken then rest else token :: rest, state.depth⟩, folds.reverse⟩

namespace Parser

def ofTokens (tokens : List Token) : Parser :=
  { unread := tokens }

/-- Reads a whole expression. With no group open around it, it has to end with the tokens; otherwise
it ends at the closing parenthesis of the innermost of them, and what follows is left unread. -/
def parse (parser : Parser) : Reading α α :=
  let state : State α := ⟨parser.depth, [], .operand .first⟩
  (state.read .expression [] parser.unread).map Formula.evaluate

/-- Reads one operator and its right operand after the formula `lhs`. -/
def extend (parser : Parser) (lhs : Formula α) : Reading α (Extension α) :=
  match parser.unread with
  | [] => ⟨.ok (.ended lhs), parser, []⟩
  | token :: rest =>
    match State.take ⟨parser.depth, [], .operator lhs⟩ token with
    | .onward next fold => (next.read .operand fold.toList rest).map .continued
    | .outward formula => ⟨.ok (.closed formula), { parser with unread := rest }, []⟩
    | .refused fault taken =>
      ⟨.error fault, { parser with unread := if taken then rest else token :: rest }, []⟩

end Parser

end Reckoner
