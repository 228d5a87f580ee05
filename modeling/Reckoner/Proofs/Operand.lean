import Reckoner.Proofs.Acceptance
import Reckoner.Proofs.Nesting

namespace Reckoner

/-- What a list begins with is a beginning of it without its last element, or all of it. -/
theorem prefix_of_append_singleton {token : Token} {tokens front behind : List Token}
    (split : tokens ++ [token] = front ++ behind) (unfinished : behind ≠ []) : front <+: tokens := by
  have part : front <+: tokens ++ [token] := split ▸ List.prefix_append front behind
  rcases List.prefix_concat_iff.mp part with whole | inside
  · rw [whole] at split
    exact absurd (List.append_right_eq_self.mp split.symm) unfinished
  · exact inside

theorem Operation.eq_of_token_eq {op other : Operation}
    (same : Token.operator (String.singleton op.symbol) =
      .operator (String.singleton other.symbol)) : op = other :=
  symbol_injective (String.singleton_inj.mp (Token.operator.inj same))

namespace Derives

variable {α : Type} [Arithmetic α] {phrase : Phrase} {levels : Nat}
  {tokens others front behind : List Token} {value x y : α}

/-- Every phrase is an expression too. -/
theorem expression (derives : Derives phrase levels tokens value) :
    Derives .expression levels tokens value := by
  cases phrase with
  | primary => exact .summand (.factor (.plain derives))
  | operand => exact .summand (.factor derives)
  | term => exact .summand derives
  | expression => exact derives

/-- A phrase has one value. -/
theorem value_unique (derives : Derives phrase nestingLimit tokens x)
    (derives' : Derives phrase nestingLimit tokens y) : x = y := by
  have first := Parser.parse_result_of_derives derives.expression
  have second := Parser.parse_result_of_derives derives'.expression
  exact Except.ok.inj (first.symm.trans second)

/-- No beginning of a phrase closes a group that was not opened in it. -/
theorem count_le (derives : Derives phrase levels tokens value) (within : levels ≤ nestingLimit)
    (part : front <+: tokens) : front.count .closing ≤ front.count .opening := by
  obtain ⟨formula, folds, _, reach⟩ :=
    Parser.exists_reach_of_derives 0 (derives.expression.mono within)
  have account : front.count .closing ≤ 0 + front.count .opening :=
    (reach.count_beginning (Nat.zero_le nestingLimit) part).1
  rwa [Nat.zero_add] at account

/-- A group is open from its first token up to its last one. -/
theorem count_lt (primary : Derives .primary nestingLimit tokens value)
    (split : tokens = front ++ behind) (begun : front ≠ []) (unfinished : behind ≠ []) :
    front.count .closing < front.count .opening := by
  cases front with
  | nil => exact absurd rfl begun
  | cons first front =>
    generalize limit : nestingLimit = levels at primary
    cases primary with
    | number _ =>
      obtain ⟨_, none⟩ := List.cons.inj split
      exact absurd (List.append_eq_nil_iff.mp none.symm).2 unfinished
    | @group levels inner _ inside =>
      simp only [List.cons_append, List.cons.injEq] at split
      obtain ⟨rfl, later⟩ := split
      have account := inside.count_le (by omega) (prefix_of_append_singleton later unfinished)
      simp
      omega

/-- An operand that begins with an operator begins with a minus sign, and a primary with none. -/
theorem of_operator_cons {symbol : String}
    (operand : Derives .operand levels (.operator symbol :: tokens) value) :
    symbol = "-" ∧ ∃ magnitude : α, Derives .primary levels tokens magnitude := by
  generalize whole : .operator symbol :: tokens = all at operand
  cases operand with
  | plain primary => cases primary <;> cases whole
  | negated primary =>
    cases whole
    exact ⟨rfl, _, primary⟩

theorem ne_nil (primary : Derives .primary levels tokens value) : tokens ≠ [] := by
  cases primary <;> nofun

theorem head?_ne_operator (primary : Derives .primary levels tokens value) (symbol : String) :
    tokens.head? ≠ some (.operator symbol) := by
  cases primary <;> nofun

/-- As many groups are opened as closed in no beginning of an operand, but in its sign. -/
theorem eq_sign_of_balanced (operand : Derives .operand nestingLimit tokens value)
    (split : tokens = front ++ behind) (unfinished : behind ≠ [])
    (balanced : front.count .closing = front.count .opening) :
    front = [] ∨ front = [.operator "-"] ∧
      ∃ magnitude : α, Derives .primary nestingLimit behind magnitude := by
  cases operand with
  | plain primary =>
    refine Or.inl (Classical.byContradiction fun begun => ?_)
    have open' := primary.count_lt split begun unfinished
    omega
  | @negated _ tokens _ primary =>
    cases front with
    | nil => exact Or.inl rfl
    | cons first front =>
      simp only [List.cons_append, List.cons.injEq] at split
      obtain ⟨rfl, rfl⟩ := split
      cases front with
      | nil => exact Or.inr ⟨rfl, _, primary⟩
      | cons next front =>
        have open' := primary.count_lt rfl (List.cons_ne_nil next front) unfinished
        simp at balanced open'
        omega

/-- No operand is the beginning of another. -/
theorem operand_prefix_free (operand : Derives .operand nestingLimit tokens x)
    (operand' : Derives .operand nestingLimit others y) (part : tokens <+: others) :
    tokens = others := by
  obtain ⟨behind, split⟩ := part
  cases behind with
  | nil => rwa [List.append_nil] at split
  | cons token behind =>
    rcases operand'.eq_sign_of_balanced split.symm nofun operand.count_eq.symm with
      rfl | ⟨rfl, _⟩
    · cases operand with
      | plain primary => exact absurd rfl primary.ne_nil
    · obtain ⟨_, _, none⟩ := operand.of_operator_cons
      exact absurd rfl none.ne_nil

/-- No product or quotient has its right operand at the end of another operand. -/
theorem operand_ne_append {op : Operation} (multiplicative : op.isMultiplicative = true)
    (operand : Derives .operand nestingLimit tokens x)
    (operand' : Derives .operand nestingLimit others y) :
    tokens ≠ front ++ .operator (String.singleton op.symbol) :: others := by
  rintro rfl
  have count := operand.count_eq
  have count' := operand'.count_eq
  have balanced : front.count .closing = front.count .opening := by
    simp [List.count_append] at count
    omega
  rcases operand.eq_sign_of_balanced rfl nofun balanced with rfl | ⟨rfl, _, primary⟩
  · obtain ⟨minus, _⟩ := operand.of_operator_cons
    cases op with
    | add | sub => cases multiplicative
    | mul | div => exact absurd minus (by decide)
  · exact primary.head?_ne_operator _ rfl

end Derives

end Reckoner
