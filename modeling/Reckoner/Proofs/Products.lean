import Reckoner.Proofs.Operand

namespace Reckoner

/-- A product or a quotient in a list of tokens: what stands before its operator, and the operator's
right operand. -/
structure Product (α : Type) [Arithmetic α] where
  before : List Token
  op : Operation
  operand : List Token
  value : α
  multiplicative : op.isMultiplicative = true
  derives : Derives .operand 256 operand value

/-- A slot makes a fold of what is put into it if it waits for a right operand. -/
theorem Slot.fold?_eq_some {α : Type} {slot : Slot α} {value : α} {fold : Fold α}
    (folds : slot.fold? value = some fold) :
    ∃ lhs op, slot = .after lhs op ∧ op.isMultiplicative = true ∧ fold = ⟨op, value⟩ := by
  cases slot with
  | first => cases folds
  | after lhs op =>
    simp only [fold?] at folds
    split at folds
    · rename_i multiplicative
      cases folds
      exact ⟨lhs, op, rfl, multiplicative, rfl⟩
    · cases folds

theorem firstSlot_first {α : Type} (groups : List (Group α)) : firstSlot .first groups = .first := by
  cases groups <;> rfl

variable {α : Type} [Arithmetic α]

namespace Product

/-- The tokens up to the end of the right operand. -/
def tokens (product : Product α) : List Token :=
  product.before ++ .operator (String.singleton product.op.symbol) :: product.operand

def fold (product : Product α) : Fold α :=
  ⟨product.op, product.value⟩

variable {p q : Product α} {tokens : List Token}

theorem tokens_ne_nil (product : Product α) : product.tokens ≠ [] :=
  List.append_ne_nil_of_right_ne_nil _ (List.cons_ne_nil _ _)

theorem eq_of_operand_eq (before : p.before = q.before) (op : p.op = q.op)
    (operand : p.operand = q.operand) : p = q := by
  obtain ⟨_, _, _, x, _, derives⟩ := p
  obtain ⟨_, _, _, y, _, derives'⟩ := q
  subst before op operand
  cases derives.value_unique derives'
  rfl

/-- An operator has one right operand: none is the beginning of another. -/
theorem eq_of_beginning (same : p.before.length = q.before.length) (part : p.tokens <+: q.tokens) :
    p = q := by
  obtain ⟨rest, split⟩ := part
  rw [Product.tokens, Product.tokens, List.append_assoc, List.cons_append] at split
  obtain ⟨before, behind⟩ := List.append_inj split same
  obtain ⟨operator, operand⟩ := List.cons.inj behind
  exact eq_of_operand_eq before (Operation.eq_of_token_eq operator)
    (p.derives.operand_prefix_free q.derives ⟨rest, operand⟩)

theorem eq_of_before_eq (same : p.before.length = q.before.length) (part : p.tokens <+: tokens)
    (part' : q.tokens <+: tokens) : p = q := by
  rcases List.prefix_or_prefix_of_prefix part part' with shorter | longer
  · exact eq_of_beginning same shorter
  · exact (eq_of_beginning same.symm longer).symm

/-- An operator whose right operand ends where another one's does is not in it. -/
theorem before_length_le (same : p.tokens = q.tokens) : q.before.length ≤ p.before.length := by
  rcases List.append_eq_append_iff.mp same with ⟨more, before, behind⟩ | ⟨more, before, _⟩
  · cases more with
    | nil => exact Nat.le_of_eq (by rw [before, List.append_nil])
    | cons token more =>
      obtain ⟨_, operand⟩ := List.cons.inj behind
      exact absurd operand (p.derives.operand_ne_append q.multiplicative q.derives)
  · rw [before, List.length_append]
    exact Nat.le_add_right ..

theorem eq_of_tokens_eq (same : p.tokens = q.tokens) : p = q := by
  have length := Nat.le_antisymm (before_length_le same.symm) (before_length_le same)
  exact eq_of_beginning length (same ▸ List.prefix_refl p.tokens)

end Product

/-- A slot behind an operator waits for its right operand. -/
theorem Awaits.after {base : Slot α} {levels : Nat} {tokens : List Token} {lhs : Formula α}
    {op : Operation} (awaits : Awaits base levels tokens (.after lhs op)) (begins : base = .first) :
    ∃ before, tokens = before ++ [.operator (String.singleton op.symbol)] := by
  subst begins
  cases awaits with
  | next _ => exact ⟨_, rfl⟩

section Step

variable {tokens : List Token} {token : Token} {state after : State α} {outer : Nat}

/-- Each fold is that of a product or quotient whose right operand ends with the token. -/
theorem Accounted.exists_product {fold : Fold α} (accounted : Accounted .first outer tokens state)
    (step : State.Step state token after (some fold)) :
    ∃ p : Product α, p.tokens = tokens ++ [token] ∧ p.fold = fold := by
  obtain @⟨around, _, _, _, opened, stands⟩ := accounted
  generalize made : some fold = fold? at step
  cases step with
  | sign => cases made
  | opening => cases made
  | operator => cases made
  | @number _ groups slot negated lexeme value read =>
    obtain ⟨lhs, op, rfl, multiplicative, rfl⟩ := Slot.fold?_eq_some made.symm
    obtain ⟨_, rfl, awaits⟩ := stands.awaits
    obtain ⟨before, rfl⟩ := awaits.after (firstSlot_first _)
    have primary : Derives .primary 256 [.number lexeme] value := .number read
    refine ⟨⟨around ++ before, op, _, _, multiplicative, primary.operand negated⟩, ?_, rfl⟩
    simp [Product.tokens]
  | @closing _ groups slot negated lhs =>
    obtain ⟨_, op, rfl, multiplicative, rfl⟩ := Slot.fold?_eq_some made.symm
    cases opened with
    | @next front _ waiting _ _ _ room awaits =>
      obtain ⟨before, rfl⟩ := awaits.after (firstSlot_first _)
      have levels : nestingLimit - (outer + (groups.length + 1)) + 1 ≤ nestingLimit := by omega
      have group := (Derives.group stands.built.spells.derives).mono levels
      refine ⟨⟨front ++ before, op, _, _, multiplicative, group.operand negated⟩, ?_, rfl⟩
      simp [Product.tokens]

/-- With the last token of a number or a group the slot that it is read for makes its fold. -/
theorem Derives.exists_last_step {levels : Nat} {groups : List (Group α)} {value : α}
    (primary : Derives .primary levels tokens value)
    (within : outer + groups.length + levels ≤ nestingLimit) (slot : Slot α) (negated : Bool) :
    ∃ front last folds state after, tokens = front ++ [last] ∧
      State.Reach ⟨outer, groups, .primary slot negated⟩ front folds state ∧
      State.Step state last after (slot.fold? (signed negated value)) := by
  cases primary with
  | number read => exact ⟨[], _, [], _, _, rfl, .start, .number read⟩
  | @group levels inner _ inside =>
    have opening : State.Step ⟨outer, groups, .primary slot negated⟩ .opening
        ⟨outer, ⟨slot, negated⟩ :: groups, .operand .first⟩ none := .opening (by omega)
    have room : levels ≤ nestingLimit - (outer + (⟨slot, negated⟩ :: groups).length) := by
      rw [List.length_cons]
      omega
    obtain ⟨formula, rfl, folds, reach⟩ := inside.isRead _ room
    exact ⟨.opening :: inner, .closing, _, _, _, rfl, opening.reach.trans reach, .closing⟩

theorem Derives.exists_last_step_operand {levels : Nat} {groups : List (Group α)} {value : α}
    (operand : Derives .operand levels tokens value)
    (within : outer + groups.length + levels ≤ nestingLimit) (slot : Slot α) :
    ∃ front last folds state after, tokens = front ++ [last] ∧
      State.Reach ⟨outer, groups, .operand slot⟩ front folds state ∧
      State.Step state last after (slot.fold? value) := by
  cases operand with
  | plain primary => exact primary.exists_last_step within slot false
  | negated primary =>
    obtain ⟨front, last, folds, state, after, rfl, reach, step⟩ :=
      primary.exists_last_step within slot true
    exact ⟨_, last, _, state, after, rfl, State.Step.sign.reach.trans reach, step⟩

/-- The operator of a product or quotient stands behind a formula and leads to its right operand. -/
theorem State.Step.of_multiplicative {op : Operation} {fold : Option (Fold α)}
    (step : Step state (.operator (String.singleton op.symbol)) after fold)
    (multiplicative : op.isMultiplicative = true) :
    ∃ lhs, after = ⟨state.outer, state.groups, .operand (.after lhs op)⟩ := by
  generalize same : Token.operator (String.singleton op.symbol) = token at step
  cases step with
  | sign =>
    have minus : op = .sub := Operation.eq_of_token_eq same
    cases minus
    cases multiplicative
  | number => cases same
  | opening => cases same
  | @operator _ _ lhs other =>
    cases Operation.eq_of_token_eq same
    exact ⟨lhs, rfl⟩
  | closing => cases same

/-- The token that ends the right operand of a product or quotient makes its fold. -/
theorem State.Reach.fold_eq {p : Product α} {folds : List (Fold α)} {fold : Option (Fold α)}
    (reach : Reach Parser.initial tokens folds state) (step : Step state token after fold)
    (whole : p.tokens = tokens ++ [token]) : fold = some p.fold := by
  have reached := Reach.next reach step
  rw [← whole, Product.tokens, ← List.singleton_append, ← List.append_assoc] at reached
  obtain ⟨_, middle, _, before, inside, _⟩ := reached.split
  obtain ⟨_, ⟨outer, groups, _⟩, _, _, operator, _⟩ := before.last
  obtain ⟨lhs, rfl⟩ := operator.of_multiplicative p.multiplicative
  -- The operand has been read, so there was room for the groups in it.
  have bounded := before.depth_le (Nat.zero_le nestingLimit)
  have shallow : nesting p.operand ≤ nestingLimit - (outer + groups.length) := by
    refine nesting_le_iff.mpr fun part front => ?_
    have account := (inside.count_beginning bounded front).2
    simp only [State.depth] at account
    omega
  have room : outer + groups.length + nesting p.operand ≤ nestingLimit := by
    simp only [State.depth] at bounded
    omega
  obtain ⟨front, last, _, _, _, split, further, ended⟩ :=
    (p.derives.of_nesting_le (Nat.le_refl _)).exists_last_step_operand room (.after lhs p.op)
  rw [Product.tokens, ← List.singleton_append, ← List.append_assoc, split,
    ← List.append_assoc] at whole
  obtain ⟨same, token⟩ := List.append_inj' whole rfl
  cases token
  obtain ⟨rfl, _⟩ := reach.unique (same ▸ before.trans further)
  have taken := step.take_eq.symm.trans ended.take_eq
  cases taken
  exact if_pos p.multiplicative

/-- The folds that are made on the way are those of the products and quotients whose right operands
have been read, each once, in the order in which the operands end. -/
theorem State.Reach.exists_products {folds : List (Fold α)}
    (reach : Reach Parser.initial tokens folds state) :
    ∃ products : List (Product α), folds = products.map Product.fold ∧
      products.Pairwise (fun p q => p.tokens.length < q.tokens.length) ∧
      ∀ p, p ∈ products ↔ p.tokens <+: tokens := by
  induction reach with
  | start =>
    refine ⟨[], rfl, .nil, fun p => iff_of_false (List.not_mem_nil) fun part => ?_⟩
    exact p.tokens_ne_nil (List.prefix_nil.mp part)
  | @next tokens folds state token after fold reach step ih =>
    obtain ⟨products, rfl, ordered, mem_iff⟩ := ih
    cases fold with
    | none =>
      refine ⟨products, by simp, ordered, fun p => ?_⟩
      rw [List.prefix_concat_iff, mem_iff]
      refine ⟨Or.inr, fun part => part.resolve_left fun whole => ?_⟩
      cases reach.fold_eq step whole
    | some fold =>
      obtain ⟨last, whole, rfl⟩ := reach.accounted.exists_product step
      refine ⟨products ++ [last], by simp, ?_, fun p => ?_⟩
      · refine List.pairwise_append.mpr ⟨ordered, List.pairwise_singleton _ last, ?_⟩
        intro p inside q isLast
        have shorter := ((mem_iff p).mp inside).length_le
        rw [List.mem_singleton.mp isLast, whole, List.length_append]
        exact Nat.lt_succ_of_le shorter
      · rw [List.prefix_concat_iff, List.mem_append, mem_iff, List.mem_singleton, or_comm, ← whole]
        exact or_congr_left ⟨congrArg Product.tokens, Product.eq_of_tokens_eq⟩

end Step

/-- Behind every operator of a product or quotient stands a right operand. -/
def HasOperands (α : Type) [Arithmetic α] (levels : Nat) (tokens : List Token) : Prop :=
  ∀ (before behind : List Token) (op : Operation), op.isMultiplicative = true →
    tokens = before ++ .operator (String.singleton op.symbol) :: behind →
    ∃ operand, ∃ factor : α, operand <+: behind ∧ Derives .operand levels operand factor

namespace HasOperands

variable {levels limit : Nat} {left right : List Token} {token : Token}

theorem nil : HasOperands α levels [] := by
  intro before behind op _ split
  cases (List.append_eq_nil_iff.mp split.symm).2

theorem mono (has : HasOperands α levels left) (more : levels ≤ limit) :
    HasOperands α limit left := by
  intro before behind op multiplicative split
  obtain ⟨operand, factor, part, derives⟩ := has before behind op multiplicative split
  exact ⟨operand, factor, part, derives.mono more⟩

/-- An operator stands in the one part, in the other or between them. -/
theorem append (first : HasOperands α levels left) (second : HasOperands α levels right)
    (between : ∀ op : Operation, op.isMultiplicative = true →
      token = .operator (String.singleton op.symbol) →
      ∃ value : α, Derives .operand levels right value) :
    HasOperands α levels (left ++ token :: right) := by
  intro before behind op multiplicative split
  have here (same : token = .operator (String.singleton op.symbol)) (rest : right = behind) :
      ∃ operand, ∃ factor : α, operand <+: behind ∧ Derives .operand levels operand factor := by
    obtain ⟨value, derives⟩ := between op multiplicative same
    exact ⟨right, value, rest ▸ List.prefix_refl right, derives⟩
  rcases List.append_eq_append_iff.mp split with ⟨more, _, rest⟩ | ⟨more, front, rest⟩
  · cases more with
    | nil =>
      obtain ⟨same, rest⟩ := List.cons.inj rest
      exact here same rest
    | cons _ more => exact second more behind op multiplicative (List.cons.inj rest).2
  · cases more with
    | nil =>
      obtain ⟨same, rest⟩ := List.cons.inj rest
      exact here same.symm rest.symm
    | cons _ more =>
      obtain ⟨rfl, rfl⟩ := List.cons.inj rest
      obtain ⟨operand, factor, part, derives⟩ := first before more op multiplicative front
      exact ⟨operand, factor, part.trans (List.prefix_append more _), derives⟩

end HasOperands

theorem Derives.hasOperands {phrase : Phrase} {levels : Nat} {tokens : List Token} {value : α}
    (derives : Derives phrase levels tokens value) : HasOperands α levels tokens := by
  induction derives with
  | number _ => exact .append .nil .nil nofun
  | @group levels tokens _ _ ih =>
    have opened : HasOperands α (levels + 1) (.opening :: tokens) :=
      .append .nil (ih.mono (Nat.le_succ levels)) nofun
    exact opened.append .nil nofun
  | plain _ ih | factor _ ih | summand _ ih => exact ih
  | negated _ ih =>
    refine .append .nil ih fun op multiplicative same => ?_
    cases (Operation.eq_of_token_eq same : .sub = op)
    cases multiplicative
  | product _ operand first second | quotient _ operand first second =>
    exact .append first second fun _ _ _ => ⟨_, operand⟩
  | sum _ _ first second =>
    refine .append first second fun op multiplicative same => ?_
    cases (Operation.eq_of_token_eq same : .add = op)
    cases multiplicative
  | difference _ _ first second =>
    refine .append first second fun op multiplicative same => ?_
    cases (Operation.eq_of_token_eq same : .sub = op)
    cases multiplicative

/-- In an expression no operator of a product or quotient is without its right operand. -/
theorem Derives.exists_product {tokens before behind : List Token} {value : α} {op : Operation}
    (derives : Derives .expression 256 tokens value) (multiplicative : op.isMultiplicative = true)
    (split : tokens = before ++ .operator (String.singleton op.symbol) :: behind) :
    ∃ p : Product α, p.before = before ∧ p.op = op ∧ p.tokens <+: tokens := by
  obtain ⟨operand, factor, ⟨rest, rfl⟩, found⟩ :=
    derives.hasOperands before behind op multiplicative split
  refine ⟨⟨before, op, operand, factor, multiplicative, found⟩, rfl, rfl, rest, ?_⟩
  rw [split, Product.tokens, List.append_assoc, List.cons_append]

end Reckoner
