import Reckoner.Proofs.Pursuit

namespace Reckoner

variable {α : Type}

namespace Parser

/-- The last tokens of an extension, which neither open nor close a group of its own: a parenthesis
that closes a group around it, or the token that was refused. -/
def uncounted : Except Fault (Extension α) → List Token
  | .ok (.closed _) => [.closing]
  | .ok _ => []
  | .error fault => fault.taken?.toList

/-- One extension keeps account of the groups that are open. -/
structure KeepsAccount (parser : Parser) (reading : Reading α (Extension α)) : Prop where
  /-- What has been taken changes the depth by its parentheses, except for the last token if it was
  refused. At no point on the way is the depth below what it was before, or above the limit. -/
  counted : ∃ taken, parser.unread = taken ++ (uncounted reading.result ++ reading.parser.unread) ∧
    reading.parser.depth + taken.count .closing = parser.depth + taken.count .opening ∧
    ∀ before, before <+: taken → before.count .closing ≤ before.count .opening ∧
      parser.depth + before.count .opening ≤ 256 + before.count .closing
  /-- All groups that were opened have been closed, unless there is a fault. -/
  restored : ∀ extension, reading.result = .ok extension → reading.parser.depth = parser.depth

/-- Nothing but a last token has been taken. -/
theorem keepsAccount_of_uncounted {parser : Parser} {reading : Reading α (Extension α)}
    (bounded : parser.depth ≤ nestingLimit) (same : reading.parser.depth = parser.depth)
    (split : parser.unread = uncounted reading.result ++ reading.parser.unread) :
    parser.KeepsAccount reading := by
  refine ⟨⟨[], split, by rw [same, List.count_nil, List.count_nil], fun before part => ?_⟩,
    fun _ _ => same⟩
  rw [List.prefix_nil.mp part]
  exact ⟨Nat.le_refl _, Nat.add_le_add_right bounded _⟩

/-- An extension leaves no fewer groups open than there were, and no more than the limit. -/
theorem KeepsAccount.depth_le {parser : Parser} {reading : Reading α (Extension α)}
    (account : parser.KeepsAccount reading) :
    parser.depth ≤ reading.parser.depth ∧ reading.parser.depth ≤ 256 := by
  obtain ⟨taken, _, depth, onTheWay⟩ := account.counted
  have whole := onTheWay taken (List.prefix_refl taken)
  omega

variable [Arithmetic α]

/-- The parser that is left when it has been extended behind one formula after the other, whatever
came of each extension. -/
def extendAll (parser : Parser) (formulas : List (Formula α)) : Parser :=
  formulas.foldl (fun parser lhs => (parser.extend lhs).parser) parser

theorem extend_keepsAccount (parser : Parser) (lhs : Formula α)
    (bounded : parser.depth ≤ nestingLimit) : parser.KeepsAccount (parser.extend lhs) := by
  generalize reading : parser.extend lhs = reading
  cases reading ▸ parser.extend_extends lhs with
  | ended exhausted => exact keepsAccount_of_uncounted bounded rfl rfl
  | closed closing => exact keepsAccount_of_uncounted bounded rfl closing
  | refused refused => exact keepsAccount_of_uncounted bounded rfl refused
  | @operand op before behind made last result unread split pursuit halts =>
    have operator : State.Step ⟨parser.depth, [], .operator lhs⟩
        (.operator (String.singleton op.symbol)) ⟨parser.depth, [], .operand (.after lhs op)⟩ none :=
      .operator
    have reach := operator.reach.trans pursuit.reach
    have onTheWay (front : List Token) (part : front <+: [_] ++ before) :=
      reach.count_beginning bounded part
    simp only [List.length_nil, Nat.zero_add] at onTheWay
    refine ⟨⟨_, ?_, reach.depth_eq, onTheWay⟩, ?_⟩
    · rw [split, List.append_assoc, List.singleton_append]
      cases result with
      | ok formula =>
        obtain ⟨_, same⟩ := halts.operand_ok
        rw [same]
        rfl
      | error fault =>
        rw [halts.error]
        rfl
    · intro extension ok
      cases result with
      | error fault => cases ok
      | ok formula =>
        obtain ⟨outside, _⟩ := halts.operand_ok
        have outer : last.outer = parser.depth := reach.outer_eq
        rw [outside]
        exact outer

theorem extendAll_append (parser : Parser) (formulas : List (Formula α)) (lhs : Formula α) :
    parser.extendAll (formulas ++ [lhs]) = ((parser.extendAll formulas).extend lhs).parser := by
  simp only [extendAll, List.foldl_append, List.foldl_cons, List.foldl_nil]

theorem extendAll_bounded (tokens : List Token) (formulas : List (Formula α)) :
    ((ofTokens tokens).extendAll formulas).depth ≤ 256 ∧
      ((ofTokens tokens).extendAll formulas).unread <:+ tokens := by
  induction formulas using List.reverseRecOn with
  | nil => exact ⟨Nat.zero_le 256, List.suffix_refl tokens⟩
  | append_singleton formulas lhs ih =>
    obtain ⟨bounded, left⟩ := ih
    have account := extend_keepsAccount _ lhs bounded
    obtain ⟨taken, split, _⟩ := account.counted
    rw [extendAll_append]
    refine ⟨account.depth_le.2, List.IsSuffix.trans ?_ left⟩
    rw [split, ← List.append_assoc]
    exact List.suffix_append ..

/-- However often a parser has been extended, behind whatever formulas and also after faults, its
depth counts the parentheses that were opened and not closed. It begins at zero, never gets past
the limit and never becomes smaller, and what is left unread is the end of the tokens. -/
theorem depth_accounted (tokens : List Token) (formulas : List (Formula α)) (lhs : Formula α) :
    let parser := (ofTokens tokens).extendAll formulas
    let reading := parser.extend lhs
    (ofTokens tokens).depth = 0 ∧ parser.depth ≤ 256 ∧ parser.unread <:+ tokens ∧
      parser.KeepsAccount reading ∧ parser.depth ≤ reading.parser.depth := by
  intro parser reading
  obtain ⟨bounded, left⟩ := extendAll_bounded tokens formulas
  have account : parser.KeepsAccount reading := extend_keepsAccount parser lhs bounded
  exact ⟨rfl, bounded, left, account, account.depth_le.1⟩

end Parser

end Reckoner
