import Reckoner.Parser
import Reckoner.Record
import Reckoner.Scanner

namespace Reckoner

/-- Why a source has no value. -/
inductive Failure where
  | unrecognized (found : Unrecognized)
  | malformed (fault : Fault)
  deriving DecidableEq

def Failure.message : Failure → String
  | unrecognized found => found.message
  | malformed fault => fault.message

/-- The value of a source, and the records of how it was found, in order. -/
structure Evaluation (α : Type) where
  result : Except Failure α
  records : List (Record α)

variable {α : Type} [Arithmetic α]

/-- Reads an expression from tokens, behind the records made so far. -/
def evaluateTokens (records : List (Record α)) (tokens : List Token) : Evaluation α :=
  let reading := (Parser.ofTokens tokens).parse
  let records := records ++ reading.folds.map .folding
  match reading.result with
  | .ok value => ⟨.ok value, records ++ [.evaluated value]⟩
  | .error fault => ⟨.error (.malformed fault), records⟩

/-- Scans the whole source before anything else, so that a character that is rejected is reported
wherever it stands. -/
def evaluate (lenient : Bool) (source : String) : Evaluation α :=
  let passage := (Scanner.ofString lenient source).rest
  let records := .evaluating source :: passage.passed.filterMap (Record.ofItem? lenient)
  match passage.tokens with
  | .ok tokens => evaluateTokens records tokens
  | .error unrecognized => ⟨.error (.unrecognized unrecognized), records⟩

end Reckoner
