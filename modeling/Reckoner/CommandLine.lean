import Reckoner.Session

namespace Reckoner

/-- What the program is asked to do. -/
inductive Command where
  | eval (lenient : Bool) (source : String)
  | tokens (lenient : Bool) (source : String)
  | repl (lenient : Bool)
  deriving DecidableEq

namespace Command

def isLenientFlag (argument : String) : Bool :=
  argument = "-l" || argument = "--lenient"

/-- A single dash is no option. -/
def isOption (argument : String) : Bool :=
  argument.toList.head? = some '-' && argument ≠ "-"

/-- Separates the one flag there is, which may be given once, from the operands. Two dashes alone
end the options, and all that follows them is operands. -/
def splitFlag? : List String → Option (Bool × List String)
  | [] => some (false, [])
  | argument :: rest =>
    if argument = "--" then some (false, rest)
    else
      match splitFlag? rest with
      | none => none
      | some (lenient, operands) =>
        if isLenientFlag argument then if lenient then none else some (true, operands)
        else if isOption argument then none
        else some (lenient, argument :: operands)

/-- The command that the arguments give, unless they are refused. -/
def ofArguments? : List String → Option Command
  | [] => none
  | name :: rest =>
    match name, splitFlag? rest with
    | "eval", some (lenient, [source]) => some (eval lenient source)
    | "tokens", some (lenient, [source]) => some (tokens lenient source)
    | "repl", some (lenient, []) => some (repl lenient)
    | _, _ => none

/-- Carries out a command. Only a session reads the input. -/
def run (input : List UInt8) : Command → Outcome
  | eval lenient source => Outcome.ofEvaluation (evaluate lenient source)
  | tokens lenient source => Outcome.ofPassage (Scanner.ofString lenient source).rest
  | repl lenient => Session.run lenient input

end Command

end Reckoner
