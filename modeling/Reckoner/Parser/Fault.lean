import Reckoner.Token

namespace Reckoner

/-- Why a list of tokens is no expression. Something is missing at its end; a closing parenthesis
closes nothing; a token stands where only another kind can; or the text of a token does not fit its
kind. -/
inductive Fault where
  | missingExpression
  | missingOperand
  | missingOperandAfterMinus
  | missingClosing
  | unmatchedClosing
  | operatorForOperand (symbol : String)
  | tokenForOperand (token : Token)
  | tokenForOperator (token : Token)
  | unknownOperator (symbol : String)
  | invalidNumber (lexeme : String)
  | nestingTooDeep
  deriving DecidableEq

def Fault.message : Fault → String
  | missingExpression => "Expected expression, found EOF"
  | missingOperand => "Expected operand, found EOF"
  | missingOperandAfterMinus => "Expected operand after `-`, found EOF"
  | missingClosing => "Expected `)`, found EOF"
  | unmatchedClosing => "Unmatched `)`"
  | operatorForOperand symbol => s!"Expected operand, found operator `{symbol}`"
  | tokenForOperand token => s!"Expected operand, found `{token.lexeme}`"
  | tokenForOperator token => s!"Expected operator, found `{token.lexeme}`"
  | unknownOperator symbol => s!"Unknown operator `{symbol}`"
  | invalidNumber lexeme => s!"Invalid number literal `{lexeme}`"
  | nestingTooDeep => "Nesting too deep"

end Reckoner
