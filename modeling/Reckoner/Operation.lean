import Reckoner.Arithmetic

namespace Reckoner

inductive Operation where
  | add
  | sub
  | mul
  | div
  deriving DecidableEq

namespace Operation

def all : List Operation := [add, sub, mul, div]

def symbol : Operation → Char
  | add => '+'
  | sub => '-'
  | mul => '*'
  | div => '/'

/-- A text names an operation only when it is that one character and nothing else. -/
def isNamedBy (op : Operation) (text : String) : Bool :=
  text.toList = [op.symbol]

def ofSymbol? (text : String) : Option Operation :=
  all.find? (·.isNamedBy text)

/-- Products and quotients bind before sums and differences. -/
def isMultiplicative : Operation → Bool
  | add | sub => false
  | mul | div => true

def apply {α : Type} [Arithmetic α] : Operation → α → α → α
  | add, x, y => x + y
  | sub, x, y => x - y
  | mul, x, y => x * y
  | div, x, y => x / y

theorem symbol_injective {op other : Operation} (same : op.symbol = other.symbol) : op = other := by
  revert same
  cases op <;> cases other <;> decide

theorem isNamedBy_iff {op : Operation} {text : String} :
    op.isNamedBy text = true ↔ text = String.singleton op.symbol := by
  rw [isNamedBy, decide_eq_true_iff, ← String.toList_inj, String.toList_singleton]

/-- Looking an operation up finds exactly the one that the text names. -/
theorem ofSymbol?_eq_some_iff {op : Operation} {text : String} :
    ofSymbol? text = some op ↔ text = String.singleton op.symbol := by
  constructor
  · intro found
    have named := List.find?_some found
    exact isNamedBy_iff.mp named
  · rintro rfl
    cases op <;> decide

end Operation

end Reckoner
