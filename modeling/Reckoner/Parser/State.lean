import Reckoner.Formula
import Reckoner.Parser.Fault

namespace Reckoner

/-- Groups may be open inside one another up to this many. -/
def nestingLimit : Nat := 256

/-- A product or quotient that was carried out as soon as its right operand was complete. -/
structure Fold (α : Type) where
  op : Operation
  operand : α
  deriving DecidableEq

/-- Where an operand goes when it is complete: it begins an expression, or it stands to the right
of an operation. -/
inductive Slot (α : Type) where
  | first
  | after (lhs : Formula α) (op : Operation)

/-- A group that is still open: where its value goes, and whether a minus sign stands before it. -/
structure Group (α : Type) where
  slot : Slot α
  negated : Bool

/-- What the next token has to be: the start of an operand, an operand whose minus sign has been
read, or an operator after a complete formula. -/
inductive Position (α : Type) where
  | operand (slot : Slot α)
  | signed (slot : Slot α)
  | operator (lhs : Formula α)

/-- A partly read expression. Its open groups are listed from the innermost; `outer` counts groups
that were left open before the reading began. -/
structure State (α : Type) where
  outer : Nat
  groups : List (Group α)
  position : Position α

/-- What one token does. It is refused with or without being taken. A closing parenthesis that
closes none of the open groups leads outward with the formula before it. -/
inductive Move (α : Type) where
  | onward (state : State α) (fold : Option (Fold α))
  | outward (formula : Formula α)
  | refused (fault : Fault) (taken : Bool)

variable {α : Type}

namespace Slot

/-- Sums and differences grow the tree. Products and quotients belong to the operand before them,
which is the last number of the tree. -/
def fill [Arithmetic α] (value : α) : Slot α → Formula α
  | first => .literal value
  | after lhs op =>
    if op.isMultiplicative then lhs.applyRightmost op value else .binary lhs op (.literal value)

def fold? (value : α) : Slot α → Option (Fold α)
  | first => none
  | after _ op => if op.isMultiplicative then some ⟨op, value⟩ else none

end Slot

namespace State

def depth (state : State α) : Nat :=
  state.outer + state.groups.length

/-- Puts a complete operand, with its sign, into its slot. -/
def complete [Arithmetic α] (state : State α) (slot : Slot α) (negated : Bool) (magnitude : α) :
    Move α :=
  let value := if negated then -magnitude else magnitude
  .onward { state with position := .operator (slot.fill value) } (slot.fold? value)

/-- A group takes the place of a number, and its slot and sign wait until it is closed. -/
def takeOperand [Arithmetic α] (state : State α) (slot : Slot α) (negated : Bool) :
    Token → Move α
  | .number lexeme =>
    match Arithmetic.read? lexeme with
    | some magnitude => state.complete slot negated magnitude
    | none => .refused (.invalidNumber lexeme) true
  | .opening =>
    if nestingLimit ≤ state.depth then .refused .nestingTooDeep true
    else
      let groups := ⟨slot, negated⟩ :: state.groups
      .onward { state with groups, position := .operand .first } none
  | token => .refused (.tokenForOperand token) true

/-- The value of a group is that of the formula in it, as if it had been written as a number. -/
def takeOperator [Arithmetic α] (state : State α) (lhs : Formula α) : Token → Move α
  | .operator symbol =>
    match Operation.ofSymbol? symbol with
    | some op => .onward { state with position := .operand (.after lhs op) } none
    | none => .refused (.unknownOperator symbol) true
  | .closing =>
    match state.groups with
    | [] => .outward lhs
    | group :: groups => complete { state with groups } group.slot group.negated lhs.evaluate
  | token => .refused (.tokenForOperator token) true

/-- An operator that cannot begin an operand is left where it stands; every other token is taken,
also when it is refused. -/
def take [Arithmetic α] (state : State α) (token : Token) : Move α :=
  match state.position, token with
  | .operand slot, .operator symbol =>
    if Operation.ofSymbol? symbol = some .sub then
      .onward { state with position := .signed slot } none
    else .refused (.operatorForOperand symbol) false
  | .operand slot, token => state.takeOperand slot false token
  | .signed slot, token => state.takeOperand slot true token
  | .operator lhs, token => state.takeOperator lhs token

/-- What is known when the tokens have run out. -/
def atEnd (state : State α) : Except Fault (Formula α) :=
  match state.position with
  | .operand .first => .error .missingExpression
  | .operand (.after _ _) => .error .missingOperand
  | .signed _ => .error .missingOperandAfterMinus
  | .operator lhs => if state.depth = 0 then .ok lhs else .error .missingClosing

end State

end Reckoner
