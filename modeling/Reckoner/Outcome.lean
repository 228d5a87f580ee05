import Reckoner.Binary64
import Reckoner.Evaluation

namespace Reckoner

/-- What is written to the two output streams. -/
structure Output where
  stdout : String
  stderr : String
  deriving DecidableEq

instance : Append Output where
  append before behind := ⟨before.stdout ++ behind.stdout, before.stderr ++ behind.stderr⟩

/-- What a program leaves behind: its output and the number it exits with. -/
structure Outcome where
  output : Output
  exit : Nat
  deriving DecidableEq

namespace Outcome

def success (stdout : String) : Outcome :=
  ⟨⟨stdout, ""⟩, 0⟩

/-- A failure after something may have been written already. -/
def failure (stdout message : String) : Outcome :=
  ⟨⟨stdout, "error: " ++ message ++ "\n"⟩, 1⟩

/-- Shows the value of an expression. -/
def ofEvaluation (evaluation : Evaluation Float) : Outcome :=
  match evaluation.result with
  | .ok value => success (Arithmetic.render value ++ "\n")
  | .error why => failure "" why.message

/-- Names the token before the character that scanning stopped at, if there is one. -/
def positionNote : Option Token → String
  | some token => s!" (after `{token.lexeme}`)"
  | none => ""

/-- Shows the tokens of a source, each on its own line, up to the first character that is
rejected. -/
def ofPassage (passage : Passage) : Outcome :=
  let lines := String.join (passage.found.map fun token => token.describe ++ "\n")
  match passage.tokens with
  | .ok _ => success lines
  | .error why => failure lines (why.message ++ positionNote passage.scanner.current)

end Outcome

end Reckoner
