import Reckoner.Text.Quoted

namespace Reckoner

/-- Numbers and operators carry the text they were written as. Whether that text is a number or
names an operation is found out when the token is used. -/
inductive Token where
  | number (lexeme : String)
  | operator (symbol : String)
  | opening
  | closing
  deriving DecidableEq

namespace Token

def lexeme : Token → String
  | number lexeme => lexeme
  | operator symbol => symbol
  | opening => "("
  | closing => ")"

/-- The kind of the token, with its text quoted where the kind does not fix it. -/
def describe : Token → String
  | number lexeme => s!"Number({Text.quoted lexeme})"
  | operator symbol => s!"Op({Text.quoted symbol})"
  | opening => "LParen"
  | closing => "RParen"

end Token

end Reckoner
