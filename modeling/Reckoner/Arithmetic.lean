namespace Reckoner

/-- Numbers that can be read and written as text and that the four operations and negation combine.
No law is asked of the operations: rounded arithmetic keeps few, and nothing here needs one. -/
class Arithmetic (α : Type) extends Add α, Sub α, Mul α, Div α, Neg α where
  /-- The number that a text writes, if it writes one. -/
  read? : String → Option α
  /-- The text that a number is shown as. -/
  render : α → String

end Reckoner
