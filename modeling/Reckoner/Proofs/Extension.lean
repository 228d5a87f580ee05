import Reckoner.Proofs.Operand
import Reckoner.Proofs.Pursuit

namespace Reckoner

namespace Formula

/-- The same formula, but for the number at the end of its right spine: `y` stands there in place
of `x`. -/
inductive Replaces {α : Type} (x y : α) : Formula α → Formula α → Prop
  | literal : Replaces x y (.literal x) (.literal y)
  | binary {lhs op rhs next} : Replaces x y rhs next →
      Replaces x y (.binary lhs op rhs) (.binary lhs op next)

/-- How a formula goes on with an operation and its right operand. Sums and differences stand above
all of it; products and quotients take its last number alone. -/
inductive GoesOn {α : Type} [Arithmetic α] (lhs : Formula α) (value : α) :
    Operation → Formula α → Prop
  | add : GoesOn lhs value .add (.binary lhs .add (.literal value))
  | sub : GoesOn lhs value .sub (.binary lhs .sub (.literal value))
  | mul {x next} : Replaces x (x * value) lhs next → GoesOn lhs value .mul next
  | div {x next} : Replaces x (x / value) lhs next → GoesOn lhs value .div next

variable {α : Type} [Arithmetic α] {x : α} {lhs next : Formula α} {op : Operation} {value : α}

theorem exists_replaces (op : Operation) (value : α) (lhs : Formula α) :
    ∃ x, Replaces x (op.apply x value) lhs (lhs.applyRightmost op value) := by
  induction lhs with
  | literal x => exact ⟨x, .literal⟩
  | binary first top last _ ih =>
    obtain ⟨x, replaces⟩ := ih
    exact ⟨x, .binary replaces⟩

theorem Replaces.eq_applyRightmost (op : Operation)
    (replaces : Replaces x (op.apply x value) lhs next) :
    next = lhs.applyRightmost op value := by
  generalize result : op.apply x value = y at replaces
  induction replaces with
  | literal => rw [applyRightmost, result]
  | binary _ ih => rw [applyRightmost, ih]

/-- A formula goes on by its right operand being put into the slot behind the operator. -/
theorem goesOn_iff : lhs.GoesOn value op next ↔ next = (Slot.after lhs op).fill value := by
  constructor
  · intro goesOn
    cases goesOn with
    | add => rfl
    | sub => rfl
    | mul replaces => exact replaces.eq_applyRightmost .mul
    | div replaces => exact replaces.eq_applyRightmost .div
  · rintro rfl
    obtain ⟨x, replaces⟩ := exists_replaces op value lhs
    cases op with
    | add => exact .add
    | sub => exact .sub
    | mul => exact .mul replaces
    | div => exact .div replaces

end Formula

variable {α : Type} [Arithmetic α] {outer : Nat} {slot : Slot α} {tokens : List Token} {value : α}

/-- Whatever has been built from operands is read again from the slot of the first of them. -/
theorem Built.leads {formula : Formula α} (built : Built slot (nestingLimit - outer) tokens formula) :
    Leads outer [] (.operand slot) tokens (.operator formula) := by
  induction built with
  | first operand => exact operand.isRead [] (Nat.le_refl _) slot
  | @next before lhs op tokens value _ operand ih =>
    exact ih.trans ((leads_operator lhs op).trans (operand.isRead [] (Nat.le_refl _) _))

namespace State

/-- The goal of a pursuit has not been reached in front of any of its tokens. -/
theorem Pursuit.unreached {goal : Goal} {state last : State α} {before behind : List Token}
    {token : Token} {made : List (Fold α)}
    (pursuit : Pursuit goal state (before ++ token :: behind) made last) :
    ∃ folds middle, Reach state before folds middle ∧ goal.reached? middle = none := by
  induction before generalizing state made with
  | nil =>
    cases pursuit with
    | next unreached _ _ => exact ⟨[], state, .start, unreached⟩
  | cons first before ih =>
    cases pursuit with
    | next _ step rest =>
      obtain ⟨folds, middle, reach, unreached⟩ := ih rest
      exact ⟨_, middle, step.reach.trans reach, unreached⟩

/-- What is read up to the end of an operand is one operand: where another one follows, the end has
been there before. -/
theorem Pursuit.derives {formula : Formula α} {made : List (Fold α)}
    (pursuit : Pursuit .operand ⟨outer, [], .operand slot⟩ tokens made
      ⟨outer, [], .operator formula⟩) :
    ∃ value, Derives .operand (nestingLimit - outer) tokens value ∧ formula = slot.fill value := by
  generalize same : (⟨outer, [], .operator formula⟩ : State α) = last at pursuit
  obtain @⟨_, _, _, _, opened, stands⟩ := pursuit.reach.accounted
  cases same
  cases opened
  cases stands.built with
  | first operand => exact ⟨_, operand, rfl⟩
  | next built _ =>
    obtain ⟨_, middle, reach, unreached⟩ := pursuit.unreached
    obtain ⟨_, further⟩ := built.leads
    rw [(further.unique reach).1] at unreached
    cases unreached

end State

/-- Reading goes after the end of an operand over all of its tokens. -/
theorem Derives.exists_pursuit (operand : Derives .operand (nestingLimit - outer) tokens value)
    (slot : Slot α) :
    ∃ made, State.Pursuit .operand ⟨outer, [], .operand slot⟩ tokens made
      ⟨outer, [], .operator (slot.fill value)⟩ := by
  obtain ⟨folds, reach⟩ := operand.isRead [] (Nat.le_refl _) slot
  obtain ⟨before, behind, made, last, _, _, rfl, pursuit, halts⟩ :=
    State.exists_pursuit .operand ⟨outer, [], .operand slot⟩ tokens
  obtain ⟨_, _, _, first, second, _⟩ := reach.split
  rw [(pursuit.reach.unique first).1] at second
  have complete : behind = [] := by
    cases reached : Goal.operand.reached? last with
    | none =>
      cases behind with
      | nil => rfl
      | cons token behind =>
        obtain ⟨after, fold, step⟩ := second.exists_step
        exact absurd step (halts.stops reached token rfl after fold)
    | some formula =>
      have behindOperand := State.eq_of_reached? reached
      have outside : last.outer = outer := pursuit.reach.outer_eq
      rw [behindOperand, outside] at pursuit
      obtain ⟨_, operand', _⟩ := pursuit.derives
      have whole := (operand'.mono (Nat.sub_le ..)).operand_prefix_free
        (operand.mono (Nat.sub_le ..)) (List.prefix_append ..)
      exact List.append_right_eq_self.mp whole.symm
  subst complete
  rw [List.append_nil] at reach ⊢
  rw [← (pursuit.reach.unique reach).1] at pursuit
  exact ⟨made, pursuit⟩

namespace Parser

/-- What comes of extending a formula: nothing at the end of the tokens or before a closing
parenthesis, which is taken; or how it goes on with an operator and one operand behind it. -/
inductive Continues (parser : Parser) (lhs : Formula α) : Extension α → Parser → Prop
  | ended : parser.unread = [] → Continues parser lhs (.ended lhs) parser
  | closed {rest} : parser.unread = .closing :: rest →
      Continues parser lhs (.closed lhs) ⟨rest, parser.depth⟩
  | continued {op : Operation} {operand rest value next} :
      parser.unread = .operator (String.singleton op.symbol) :: (operand ++ rest) →
      Derives .operand (256 - parser.depth) operand value → lhs.GoesOn value op next →
      Continues parser lhs (.continued next) ⟨rest, parser.depth⟩

variable {parser : Parser} {lhs : Formula α} {extension : Extension α} {left : Parser}

theorem continues_of_extend (ok : (parser.extend lhs).result = .ok extension) :
    parser.Continues lhs extension (parser.extend lhs).parser := by
  generalize reading : parser.extend lhs = reading at ok
  cases reading ▸ parser.extend_extends lhs with
  | ended exhausted =>
    cases ok
    exact .ended exhausted
  | closed closing =>
    cases ok
    exact .closed closing
  | refused _ => cases ok
  | @operand op before behind made last result unread split pursuit halts =>
    cases result with
    | error fault => cases ok
    | ok formula =>
      cases ok
      obtain ⟨behindOperand, rfl⟩ := halts.operand_ok
      have outside : last.outer = parser.depth := pursuit.reach.outer_eq
      rw [behindOperand, outside] at pursuit ⊢
      obtain ⟨value, operand, filled⟩ := pursuit.derives
      exact .continued split operand (Formula.goesOn_iff.mpr filled)

theorem Continues.extend (continues : parser.Continues lhs extension left) :
    (parser.extend lhs).result = .ok extension ∧ (parser.extend lhs).parser = left := by
  obtain ⟨tokens, depth⟩ := parser
  cases continues with
  | ended exhausted =>
    cases exhausted
    exact ⟨rfl, rfl⟩
  | closed closing =>
    cases closing
    exact ⟨rfl, rfl⟩
  | @continued op operand rest value next split derives goesOn =>
    cases split
    cases Formula.goesOn_iff.mp goesOn
    obtain ⟨made, pursuit⟩ := derives.exists_pursuit (.after lhs op)
    have halts : State.Halts .operand ⟨depth, [], .operator ((Slot.after lhs op).fill value)⟩ rest
        (.ok ((Slot.after lhs op).fill value)) rest := .reached rfl
    have read := pursuit.read_eq halts rfl []
    have step : State.Step ⟨depth, [], .operator lhs⟩
        (.operator (String.singleton op.symbol)) ⟨depth, [], .operand (.after lhs op)⟩ none :=
      .operator
    simp only [Parser.extend, step.take_eq, Option.toList_none, read]
    exact ⟨rfl, rfl⟩

/-- One extension, of whatever formula and at whatever depth, does exactly what it should: it goes
well in these ways alone, each of which fixes the result and what is left unread at the same depth
as before, and in every other case it is an error. -/
theorem extend_eq_ok_iff (parser : Parser) (lhs : Formula α) :
    (∀ extension left,
      ((parser.extend lhs).result = .ok extension ∧ (parser.extend lhs).parser = left) ↔
        parser.Continues lhs extension left) ∧
      ((∃ fault, (parser.extend lhs).result = .error fault) ↔
        ∀ extension left, ¬parser.Continues lhs extension left) := by
  refine ⟨fun extension left => ⟨?_, Continues.extend⟩, ?_, ?_⟩
  · rintro ⟨ok, rfl⟩
    exact continues_of_extend ok
  · rintro ⟨fault, failed⟩ extension left continues
    cases failed.symm.trans continues.extend.1
  · intro refused
    cases result : (parser.extend lhs).result with
    | error fault => exact ⟨fault, rfl⟩
    | ok extension => exact absurd (continues_of_extend result) (refused extension _)

end Parser

end Reckoner
