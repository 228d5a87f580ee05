import Reckoner.Parser.State
import Reckoner.Scanner.Item

namespace Reckoner

/-- How much a record matters, from the most to the least. -/
inductive Level where
  | error
  | warn
  | info
  | debug
  | trace
  deriving DecidableEq

namespace Level

def name : Level → String
  | error => "ERROR"
  | warn => "WARN"
  | info => "INFO"
  | debug => "DEBUG"
  | trace => "TRACE"

def rank : Level → Nat
  | error => 1
  | warn => 2
  | info => 3
  | debug => 4
  | trace => 5

end Level

/-- Something that was done on the way to a value. -/
inductive Record (α : Type) where
  | evaluating (source : String)
  | skipping (unrecognized : Unrecognized)
  | scanned (token : Token)
  | folding (fold : Fold α)
  | evaluated (value : α)
  deriving DecidableEq

namespace Record

variable {α : Type}

def level : Record α → Level
  | evaluating _ => .debug
  | skipping _ => .warn
  | scanned _ => .trace
  | folding _ => .trace
  | evaluated _ => .debug

def text [Arithmetic α] : Record α → String
  | evaluating source => s!"Evaluating {Text.quoted source}"
  | skipping unrecognized =>
    s!"Skipping unrecognized character `{unrecognized.char}` at offset {unrecognized.offset}"
  | scanned token => s!"Lexed {token.describe}"
  | folding fold =>
    s!"Folding `{fold.op.symbol}` {Arithmetic.render fold.operand} into the rightmost operand"
  | evaluated value => s!"Evaluated to {Arithmetic.render value}"

/-- Passing over a character is worth a record; being stopped by one is not. -/
def ofItem? (lenient : Bool) : Item → Option (Record α)
  | .token _ token => some (scanned token)
  | .unrecognized unrecognized => if lenient then some (skipping unrecognized) else none

/-- Whether a log that is kept up to this level has the record. Without a level it has none. -/
def isKept (threshold : Option Level) (record : Record α) : Bool :=
  threshold.any (record.level.rank ≤ ·.rank)

end Record

end Reckoner
