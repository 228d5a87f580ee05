import Reckoner.Proofs.Folding
import Reckoner.Proofs.Reach

namespace Reckoner

variable {α : Type} [Arithmetic α] {outer levels : Nat} {groups : List (Group α)}
  {before tokens : List Token}

/-- Tokens that lead from one position to another while the same groups stay open around them. -/
def Leads (outer : Nat) (groups : List (Group α)) (start : Position α) (tokens : List Token)
    (stop : Position α) : Prop :=
  ∃ folds, State.Reach ⟨outer, groups, start⟩ tokens folds ⟨outer, groups, stop⟩

theorem Leads.trans {start middle stop : Position α}
    (first : Leads outer groups start before middle)
    (second : Leads outer groups middle tokens stop) :
    Leads outer groups start (before ++ tokens) stop := by
  obtain ⟨early, first⟩ := first
  obtain ⟨late, second⟩ := second
  exact ⟨early ++ late, first.trans second⟩

theorem leads_operator (lhs : Formula α) (op : Operation) :
    Leads outer groups (.operator lhs) [.operator (String.singleton op.symbol)]
      (.operand (.after lhs op)) :=
  ⟨_, State.Step.operator.reach⟩

/-- How each kind of phrase is read. An operand fills the slot it is read for, and a term does so if
the slot begins a term. An expression gives some formula with its value. -/
def Phrase.IsRead (outer : Nat) (groups : List (Group α)) (tokens : List Token) (value : α) :
    Phrase → Prop
  | primary => ∀ slot negated, Leads outer groups (.primary slot negated) tokens
      (.operator (slot.fill (signed negated value)))
  | operand => ∀ slot, Leads outer groups (.operand slot) tokens (.operator (slot.fill value))
  | term => ∀ slot : Slot α, slot.BeginsTerm →
      Leads outer groups (.operand slot) tokens (.operator (slot.fill value))
  | expression => ∃ formula : Formula α, formula.evaluate = value ∧
      Leads outer groups (.operand .first) tokens (.operator formula)

/-- A group is read like a number, if there is room for it. -/
theorem isRead_group {value : α}
    (expression : ∀ groups : List (Group α), levels ≤ nestingLimit - (outer + groups.length) →
      Phrase.IsRead outer groups tokens value .expression)
    (within : levels + 1 ≤ nestingLimit - (outer + groups.length)) :
    Phrase.IsRead outer groups (.opening :: tokens ++ [.closing]) value .primary := by
  intro slot negated
  have room : outer + groups.length < nestingLimit := by omega
  have inside : levels ≤ nestingLimit - (outer + (⟨slot, negated⟩ :: groups).length) := by
    rw [List.length_cons]
    omega
  obtain ⟨formula, evaluates, folds, reach⟩ := expression _ inside
  have opening : State.Step ⟨outer, groups, .primary slot negated⟩ .opening _ none := .opening room
  have closing : State.Step ⟨outer, ⟨slot, negated⟩ :: groups, .operator formula⟩ .closing _ _ :=
    .closing
  rw [evaluates] at closing
  exact ⟨_, (opening.reach.trans reach).trans closing.reach⟩

theorem isRead_chain (op : Operation) {slot : Slot α} {x y : α}
    (term : Leads outer groups (.operand slot) before (.operator (slot.fill x)))
    (operand : Phrase.IsRead outer groups tokens y .operand)
    (begins : slot.BeginsTerm) (multiplicative : op.isMultiplicative = true) :
    Leads outer groups (.operand slot)
      (before ++ .operator (String.singleton op.symbol) :: tokens)
      (.operator (slot.fill (op.apply x y))) := by
  rw [← Slot.fill_after_of_multiplicative begins multiplicative]
  exact term.trans ((leads_operator _ op).trans (operand _))

theorem isRead_sum (op : Operation) {x y : α}
    (expression : Phrase.IsRead outer groups before x .expression)
    (term : Phrase.IsRead outer groups tokens y .term) (additive : op.isMultiplicative = false) :
    Phrase.IsRead outer groups (before ++ .operator (String.singleton op.symbol) :: tokens)
      (op.apply x y) .expression := by
  obtain ⟨formula, rfl, leads⟩ := expression
  refine ⟨(Slot.after formula op).fill y, ?_,
    leads.trans ((leads_operator _ op).trans (term _ additive))⟩
  simp only [Slot.fill, additive]
  exact Formula.evaluate_binary _ _ _

/-- Whatever the grammar derives is read, inside any groups that leave room for those of the
phrase. -/
theorem Derives.isRead {phrase : Phrase} {value : α} (derives : Derives phrase levels tokens value) :
    ∀ groups : List (Group α), levels ≤ nestingLimit - (outer + groups.length) →
      phrase.IsRead outer groups tokens value := by
  induction derives with
  | number read => exact fun _ _ _ _ => ⟨_, (State.Step.number read).reach⟩
  | group _ ih => exact fun _ within => isRead_group ih within
  | plain _ ih => exact fun groups within slot => ih groups within slot false
  | negated _ ih =>
    intro groups within slot
    obtain ⟨folds, reach⟩ := ih groups within slot true
    exact ⟨_, State.Step.sign.reach.trans reach⟩
  | factor _ ih => exact fun groups within slot _ => ih groups within slot
  | product _ _ first second =>
    exact fun groups within slot begins => isRead_chain .mul (first groups within slot begins)
      (second groups within) begins rfl
  | quotient _ _ first second =>
    exact fun groups within slot begins => isRead_chain .div (first groups within slot begins)
      (second groups within) begins rfl
  | summand _ ih =>
    exact fun groups within => ⟨.literal _, Formula.evaluate_literal _, ih groups within .first trivial⟩
  | sum _ _ first second =>
    exact fun groups within => isRead_sum .add (first groups within) (second groups within) rfl
  | difference _ _ first second =>
    exact fun groups within => isRead_sum .sub (first groups within) (second groups within) rfl

end Reckoner
