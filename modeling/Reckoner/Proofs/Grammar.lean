import Reckoner.Formula
import Reckoner.Token

namespace Reckoner

/-- The four kinds of phrases of the grammar, from the inside to the outside: a number or a group, a
primary with or without a minus sign, a chain of products and quotients, and one of sums and
differences. -/
inductive Phrase where
  | primary
  | operand
  | term
  | expression
  deriving DecidableEq

/-- The whole list of tokens is a phrase with this value, and its groups are at most `levels` deep in
one another. Chains lean to the left, so that each operation has all of the chain before it as its
left operand. -/
inductive Derives {α : Type} [Arithmetic α] : Phrase → Nat → List Token → α → Prop
  | number {levels lexeme value} : Arithmetic.read? lexeme = some value →
      Derives .primary levels [.number lexeme] value
  | group {levels tokens value} : Derives .expression levels tokens value →
      Derives .primary (levels + 1) (.opening :: tokens ++ [.closing]) value
  | plain {levels tokens value} : Derives .primary levels tokens value →
      Derives .operand levels tokens value
  | negated {levels tokens value} : Derives .primary levels tokens value →
      Derives .operand levels (.operator "-" :: tokens) (-value)
  | factor {levels tokens value} : Derives .operand levels tokens value →
      Derives .term levels tokens value
  | product {levels before tokens x y} : Derives .term levels before x →
      Derives .operand levels tokens y →
      Derives .term levels (before ++ .operator "*" :: tokens) (x * y)
  | quotient {levels before tokens x y} : Derives .term levels before x →
      Derives .operand levels tokens y →
      Derives .term levels (before ++ .operator "/" :: tokens) (x / y)
  | summand {levels tokens value} : Derives .term levels tokens value →
      Derives .expression levels tokens value
  | sum {levels before tokens x y} : Derives .expression levels before x →
      Derives .term levels tokens y →
      Derives .expression levels (before ++ .operator "+" :: tokens) (x + y)
  | difference {levels before tokens x y} : Derives .expression levels before x →
      Derives .term levels tokens y →
      Derives .expression levels (before ++ .operator "-" :: tokens) (x - y)

/-- The minus sign of an operand, if it has one. -/
def signTokens (negated : Bool) : List Token :=
  if negated then [.operator "-"] else []

/-- The value of an operand whose primary has this one. -/
def signed {α : Type} [Neg α] (negated : Bool) (value : α) : α :=
  if negated then -value else value

namespace Derives

variable {α : Type} [Arithmetic α] {levels : Nat} {before tokens : List Token} {x y : α}

/-- Products and quotients alike: an operation of the inner chain takes one more operand. -/
theorem scaled {op : Operation} (multiplicative : op.isMultiplicative = true)
    (term : Derives .term levels before x) (operand : Derives .operand levels tokens y) :
    Derives .term levels (before ++ .operator (String.singleton op.symbol) :: tokens)
      (op.apply x y) := by
  cases op with
  | add | sub => cases multiplicative
  | mul => exact .product term operand
  | div => exact .quotient term operand

/-- Sums and differences alike: an operation of the outer chain takes one more term. -/
theorem summed {op : Operation} (additive : op.isMultiplicative = false)
    (expression : Derives .expression levels before x) (term : Derives .term levels tokens y) :
    Derives .expression levels (before ++ .operator (String.singleton op.symbol) :: tokens)
      (op.apply x y) := by
  cases op with
  | add => exact .sum expression term
  | sub => exact .difference expression term
  | mul | div => cases additive

/-- Operands with and without a sign alike. -/
theorem operand (negated : Bool) (primary : Derives .primary levels tokens x) :
    Derives .operand levels (signTokens negated ++ tokens) (signed negated x) := by
  cases negated with
  | false => exact .plain primary
  | true => exact .negated primary

end Derives

end Reckoner
