import Reckoner.Parser
import Reckoner.Proofs.Evaluate
import Reckoner.Proofs.Grammar

namespace Reckoner

variable {α : Type} [Arithmetic α] {levels : Nat} {before tokens : List Token}

/-- A slot that begins a term: the value put into it is the last number of the tree. -/
def Slot.BeginsTerm : Slot α → Prop
  | first => True
  | after _ op => op.isMultiplicative = false

/-- A product or quotient changes the number that began the term, and nothing before it. -/
theorem Slot.fill_after_of_multiplicative {slot : Slot α} {op : Operation} {x y : α}
    (begins : slot.BeginsTerm) (multiplicative : op.isMultiplicative = true) :
    (Slot.after (slot.fill x) op).fill y = slot.fill (op.apply x y) := by
  cases slot with
  | first => simp only [fill, multiplicative, if_true, Formula.applyRightmost]
  | after lhs top =>
    have additive : top.isMultiplicative = false := begins
    simp only [fill, additive, multiplicative, if_true]
    rfl

/-- A formula that stands for terms joined by sums and differences. Each term is one literal in it,
so that products and quotients leave no trace but their values. -/
inductive Spells (levels : Nat) : List Token → Formula α → Prop
  | term {tokens value} : Derives .term levels tokens value → Spells levels tokens (.literal value)
  | next {before lhs op tokens value} : op.isMultiplicative = false → Spells levels before lhs →
      Derives .term levels tokens value →
      Spells levels (before ++ .operator (String.singleton op.symbol) :: tokens)
        (.binary lhs op (.literal value))

theorem Spells.derives {formula : Formula α} (spells : Spells levels tokens formula) :
    Derives .expression levels tokens formula.evaluate := by
  induction spells with
  | term term => exact .summand term
  | next additive _ term ih =>
    rw [Formula.evaluate_binary, Formula.evaluate_literal]
    exact .summed additive ih term

/-- Whichever operation follows, folding its right operand in gives the formula of the longer list
of tokens. A product or quotient extends the last term. -/
theorem Spells.fill {lhs : Formula α} {op : Operation} {value : α}
    (spells : Spells levels before lhs) (operand : Derives .operand levels tokens value) :
    Spells levels (before ++ .operator (String.singleton op.symbol) :: tokens)
      ((Slot.after lhs op).fill value) := by
  cases multiplicative : op.isMultiplicative with
  | false =>
    simp only [Slot.fill, multiplicative]
    exact .next multiplicative spells (.factor operand)
  | true =>
    simp only [Slot.fill, multiplicative, if_true]
    cases spells with
    | term term => exact .term (term.scaled multiplicative operand)
    | next additive first term =>
      rw [List.append_assoc, List.cons_append]
      exact .next additive first (term.scaled multiplicative operand)

/-- The formula that reading has built from the operands it has put into slots, from the left to the
right. The first of them went into `base`. -/
inductive Built (base : Slot α) (levels : Nat) : List Token → Formula α → Prop
  | first {tokens value} : Derives .operand levels tokens value →
      Built base levels tokens (base.fill value)
  | next {before lhs op tokens value} : Built base levels before lhs →
      Derives .operand levels tokens value →
      Built base levels (before ++ .operator (String.singleton op.symbol) :: tokens)
        ((Slot.after lhs op).fill value)

/-- The slot that reading is about to fill, with the tokens that it has read since `base`. -/
inductive Awaits (base : Slot α) (levels : Nat) : List Token → Slot α → Prop
  | first : Awaits base levels [] base
  | next {before lhs op} : Built base levels before lhs →
      Awaits base levels (before ++ [.operator (String.singleton op.symbol)]) (.after lhs op)

theorem Awaits.fill {base slot : Slot α} {value : α} (awaits : Awaits base levels before slot)
    (operand : Derives .operand levels tokens value) :
    Built base levels (before ++ tokens) (slot.fill value) := by
  cases awaits with
  | first => exact .first operand
  | next built =>
    rw [List.append_assoc, List.singleton_append]
    exact .next built operand

theorem Built.spells {formula : Formula α} (built : Built .first levels tokens formula) :
    Spells levels tokens formula := by
  induction built with
  | first operand => exact .term (.factor operand)
  | next _ operand ih => exact ih.fill operand

end Reckoner
