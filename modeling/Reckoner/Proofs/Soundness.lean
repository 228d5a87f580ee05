import Reckoner.Proofs.Completeness

namespace Reckoner

variable {α : Type} [Arithmetic α] {base : Slot α} {outer levels : Nat}
  {tokens : List Token}

/-- The slot of the first operand behind the innermost open parenthesis. -/
def firstSlot (base : Slot α) : List (Group α) → Slot α
  | [] => base
  | _ :: _ => .first

/-- The tokens up to the innermost open parenthesis: in front of each one is what waits for its
group. The groups that are to come have the rest of the nesting limit. -/
inductive Opened (base : Slot α) (outer : Nat) : List Token → List (Group α) → Prop
  | none : Opened base outer [] []
  | next {before groups tokens slot} (negated : Bool) : Opened base outer before groups →
      outer + groups.length < nestingLimit →
      Awaits (firstSlot base groups) (nestingLimit - (outer + groups.length)) tokens slot →
      Opened base outer (before ++ tokens ++ signTokens negated ++ [.opening])
        (⟨slot, negated⟩ :: groups)

/-- The tokens behind the innermost open parenthesis, which lead to the position. -/
inductive Stands (base : Slot α) (levels : Nat) : List Token → Position α → Prop
  | primary {tokens slot} (negated : Bool) : Awaits base levels tokens slot →
      Stands base levels (tokens ++ signTokens negated)
        (.primary slot negated)
  | operator {tokens formula} : Built base levels tokens formula →
      Stands base levels tokens (.operator formula)

theorem Stands.operand {slot : Slot α} (awaits : Awaits base levels tokens slot) :
    Stands base levels tokens (.operand slot) := by
  have stands := Stands.primary false awaits
  rwa [signTokens, if_neg (by decide), List.append_nil] at stands

theorem Stands.built {formula : Formula α} (stands : Stands base levels tokens (.operator formula)) :
    Built base levels tokens formula := by
  generalize same : Position.operator formula = position at stands
  cases stands with
  | primary negated _ => cases negated <;> cases same
  | operator built => cases same; exact built

theorem Stands.awaits {slot : Slot α} {negated : Bool}
    (stands : Stands base levels tokens (.primary slot negated)) :
    ∃ before, tokens = before ++ signTokens negated ∧
      Awaits base levels before slot := by
  generalize same : Position.primary slot negated = position at stands
  cases stands with
  | primary other awaits => cases negated <;> cases other <;> cases same <;> exact ⟨_, rfl, awaits⟩
  | operator _ => cases negated <;> cases same

theorem Stands.slot {slot : Slot α} (stands : Stands base levels tokens (.operand slot)) :
    Awaits base levels tokens slot := by
  have unsigned : Stands base levels tokens (.primary slot false) := stands
  obtain ⟨before, rfl, awaits⟩ := unsigned.awaits
  rwa [signTokens, if_neg (by decide), List.append_nil]

/-- What the tokens read so far amount to, in each state that they can lead to. -/
inductive Accounted (base : Slot α) (outer : Nat) : List Token → State α → Prop
  | mk {before tokens groups position} : Opened base outer before groups →
      Stands (firstSlot base groups) (nestingLimit - (outer + groups.length)) tokens position →
      Accounted base outer (before ++ tokens) ⟨outer, groups, position⟩

/-- A closing parenthesis makes a group of what was read behind the innermost open one. -/
theorem Opened.close {groups : List (Group α)} {slot : Slot α} {negated : Bool}
    {before inner : List Token} {formula : Formula α}
    (opened : Opened base outer before (⟨slot, negated⟩ :: groups))
    (built : Built .first (nestingLimit - (outer + (groups.length + 1))) inner formula) :
    Accounted base outer (before ++ inner ++ [.closing])
      ⟨outer, groups, .operator (slot.fill (signed negated formula.evaluate))⟩ := by
  cases opened with
  | @next front _ tokens _ _ enclosing room awaits =>
    have levels : nestingLimit - (outer + (groups.length + 1)) + 1 =
      nestingLimit - (outer + groups.length) := by omega
    have group := Derives.group built.spells.derives
    rw [levels] at group
    have whole := awaits.fill (group.operand negated)
    have placed := Accounted.mk enclosing (.operator whole)
    simpa only [List.append_assoc, List.cons_append, List.nil_append] using placed

theorem Accounted.step {state after : State α} {token : Token} {fold : Option (Fold α)}
    (accounted : Accounted base outer tokens state) (step : State.Step state token after fold) :
    Accounted base outer (tokens ++ [token]) after := by
  obtain ⟨opened, stands⟩ := accounted
  rw [List.append_assoc]
  cases step with
  | sign =>
    exact .mk opened (.primary true stands.slot)
  | @number _ _ _ negated _ _ read =>
    obtain ⟨before, rfl, awaits⟩ := stands.awaits
    have operand := awaits.fill ((Derives.number read).operand negated)
    rw [List.append_assoc]
    exact .mk opened (.operator operand)
  | @opening _ _ _ negated room =>
    obtain ⟨before, rfl, awaits⟩ := stands.awaits
    have inside := Accounted.mk (opened.next negated room awaits) (.operand .first)
    simpa only [List.append_assoc, List.append_nil, firstSlot] using inside
  | operator => exact .mk opened (.operand (.next stands.built))
  | closing =>
    rw [← List.append_assoc]
    exact opened.close stands.built

/-- Every state that tokens lead to accounts for all of them. -/
theorem State.Reach.accounted {state : State α} {folds : List (Fold α)}
    (reach : Reach ⟨outer, [], .operand base⟩ tokens folds state) :
    Accounted base outer tokens state := by
  induction reach with
  | start => exact .mk .none (.operand .first)
  | next _ step ih => exact ih.step step

/-- With no group open, the tokens that lead behind an operand are an expression. -/
theorem State.Reach.derives {formula : Formula α} {folds : List (Fold α)}
    (reach : Reach ⟨outer, [], .operand .first⟩ tokens folds ⟨outer, [], .operator formula⟩) :
    Derives .expression (nestingLimit - outer) tokens formula.evaluate := by
  generalize same : (⟨outer, [], .operator formula⟩ : State α) = final at reach
  obtain ⟨opened, stands⟩ := reach.accounted
  cases same
  cases opened
  exact stands.built.spells.derives

end Reckoner
