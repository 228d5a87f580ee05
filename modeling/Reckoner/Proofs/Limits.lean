import Reckoner.Proofs.Descent

namespace Reckoner

variable {α : Type} [Arithmetic α]

namespace Descent

/-- What a call for an expression comes to. Inside a group, where it has to end at a closing
parenthesis, that token is one to spare. -/
def ExpressionSettles (α : Type) [Arithmetic α] (parser : Parser) : Prop :=
  Settles (fun stack budget => expression stack budget parser) (parser.parse : Reading α α)
    parser.unread.length parser.depth (nestingLimit - parser.depth + 1) fun _ => min parser.depth 1

/-- Expressions settle that are read from fewer tokens. -/
def SettlesBelow (α : Type) [Arithmetic α] (tokens : Nat) : Prop :=
  ∀ parser : Parser, parser.unread.length < tokens → ExpressionSettles α parser

/-- A call comes to the value of an operand, and the parser, at a position in front of the same
operand, puts this value into its slot. -/
def ReadsOperand (call : Nat → Nat → Option (Descent α α)) (parser : Parser)
    (position : Slot α → Position α) : Prop :=
  ∃ reading : Reading α α,
    Settles call reading parser.unread.length parser.depth (nestingLimit - parser.depth)
      (fun _ => 1) ∧
    ∀ slot, State.read .operand ⟨parser.depth, [], position slot⟩ [] parser.unread =
      reading.andThen slot.place

section Operand

variable {depth : Nat} {token : Token} {rest : List Token} {fault : Fault} {taken negated : Bool}
  {position : Slot α → Position α}

theorem readsOperand_refused
    (refused : ∀ slot, State.take ⟨depth, [], position slot⟩ token = .refused fault taken) :
    ReadsOperand
      (fun _ _ => found ⟨.error fault, ⟨if taken then rest else token :: rest, depth⟩, []⟩)
      ⟨token :: rest, depth⟩ position := by
  refine ⟨_, settles_failed ?_, fun slot => ?_⟩
  · cases taken with
    | true => exact Nat.le_succ _
    | false => exact Nat.le_refl _
  · simp only [State.read, refused]
    rfl

/-- The expression in a group has the rest of the nesting limit, and is shorter. -/
theorem group_settles (room : ¬nestingLimit ≤ depth) (below : SettlesBelow α (rest.length + 1)) :
    Settles (fun stack budget => group (expression stack) budget ⟨rest, depth⟩)
      (Parser.readGroup ⟨rest, depth⟩ : Reading α α) rest.length depth (nestingLimit - depth)
      fun _ => 1 := by
  have levels : nestingLimit - (depth + 1) + 1 = nestingLimit - depth := by omega
  have inside := below ⟨rest, depth + 1⟩ (Nat.lt_succ_self _)
  simp only [ExpressionSettles, levels] at inside
  simp only [group, room, if_false]
  refine inside.andThen
    (fun _ _ value left => found ⟨.ok value, { left with depth := left.depth - 1 }, []⟩)
    fun value _ restored _ => settles_found (Nat.le_add_right _ _) fun _ _ => ?_
  dsimp only
  omega

theorem readsOperand_group (negated : Bool) (below : SettlesBelow α (rest.length + 1)) :
    ReadsOperand
      (fun stack budget => andThen (group (expression stack) budget ⟨rest, depth⟩)
        fun (value : α) _ left => found ⟨.ok (signed negated value), left, []⟩)
      ⟨.opening :: rest, depth⟩ (.primary · negated) := by
  by_cases room : nestingLimit ≤ depth
  · have refused (slot : Slot α) : State.take ⟨depth, [], .primary slot negated⟩ .opening =
        .refused .nestingTooDeep true := by
      rw [State.take_primary (by simp)]
      exact if_pos room
    simp only [group, room, if_true]
    exact readsOperand_refused refused
  have longer := (group_settles room below).mono (Nat.le_succ _) fun _ _ => Nat.le_succ _
  have opening (slot : Slot α) : State.take ⟨depth, [], .primary slot negated⟩ .opening =
      .onward ⟨depth, [⟨slot, negated⟩], .operand .first⟩ none :=
    (State.Step.opening (Nat.not_le.mp room)).take_eq
  refine ⟨(Parser.readGroup ⟨rest, depth⟩).andThen fun value left =>
    ⟨.ok (signed negated value), left, []⟩, ?_, fun slot => ?_⟩
  · exact longer.andThen (fun _ _ value left => found ⟨.ok (signed negated value), left, []⟩)
      fun value _ restored _ => settles_found (Nat.le_add_right _ _)
        fun _ _ => ⟨Nat.le_refl _, restored⟩
  · simp only [State.read, opening, Goal.reached?, Option.toList_none, List.append_nil]
    rw [State.read_group, Reading.andThen_assoc]
    rfl

theorem readsOperand_number {lexeme : String} :
    ReadsOperand
      (fun stack budget =>
        primary (expression stack) negated budget ⟨.number lexeme :: rest, depth⟩)
      ⟨.number lexeme :: rest, depth⟩ fun slot : Slot α => .primary slot negated := by
  cases read : (Arithmetic.read? lexeme : Option α) with
  | none =>
    have refused (slot : Slot α) : State.take ⟨depth, [], .primary slot negated⟩ (.number lexeme) =
        .refused (.invalidNumber lexeme) true := by
      rw [State.take_primary (by simp)]
      simp only [State.takeOperand, read]
    simp only [primary, read]
    exact readsOperand_refused refused
  | some value =>
    refine ⟨⟨.ok (signed negated value), ⟨rest, depth⟩, []⟩, ?_, fun slot => ?_⟩
    · simp only [primary, read]
      exact settles_found (Nat.le_succ _) fun _ _ => ⟨Nat.le_refl _, rfl⟩
    · have number : State.Step ⟨depth, [], .primary slot negated⟩ (.number lexeme) _ _ :=
        .number read
      simp only [State.read, number.take_eq, Goal.reached?, List.append_nil, Reading.andThen_ok,
        Slot.place]
      cases slot.fold? (signed negated value) <;> rfl

/-- A primary may be any token, but without a sign before it no operator. -/
theorem readsOperand_primary (token : Token) (negated : Bool)
    (below : SettlesBelow α (rest.length + 1))
    (unsigned : negated = false → ∀ symbol, token ≠ .operator symbol) :
    ReadsOperand
      (fun stack budget => primary (expression stack) negated budget ⟨token :: rest, depth⟩)
      ⟨token :: rest, depth⟩ fun slot : Slot α => .primary slot negated := by
  have taken (slot : Slot α) : State.take ⟨depth, [], .primary slot negated⟩ token =
      State.takeOperand ⟨depth, [], .primary slot negated⟩ slot negated token :=
    State.take_primary unsigned
  cases token with
  | number lexeme => exact readsOperand_number
  | opening => exact readsOperand_group negated below
  | operator symbol => exact readsOperand_refused taken
  | closing => exact readsOperand_refused taken

/-- Behind its sign an operand may be missing, and in front of its sign it may not. -/
theorem readsOperand_signed (tokens : List Token) (below : SettlesBelow α tokens.length) :
    ReadsOperand (fun stack budget => primary (expression stack) true budget ⟨tokens, depth⟩)
      ⟨tokens, depth⟩ (Position.signed : Slot α → Position α) := by
  cases tokens with
  | nil =>
    exact ⟨⟨.error .missingOperandAfterMinus, ⟨[], depth⟩, []⟩, settles_failed (Nat.le_refl _),
      fun slot => rfl⟩
  | cons token rest => exact readsOperand_primary token true below nofun

/-- An operator in front of an operand is its minus sign, or is refused where it stands. -/
theorem readsOperand_operator {symbol : String} (below : SettlesBelow α (rest.length + 1)) :
    ReadsOperand
      (fun stack budget => operand (expression stack) budget ⟨.operator symbol :: rest, depth⟩)
      ⟨.operator symbol :: rest, depth⟩ (Position.operand : Slot α → Position α) := by
  by_cases minus : Operation.ofSymbol? symbol = some .sub
  · obtain ⟨reading, settles, reads⟩ := readsOperand_signed rest
      fun parser shorter => below parser (Nat.lt_succ_of_lt shorter)
    refine ⟨reading, ?_, fun slot => ?_⟩
    · simp only [operand, minus, if_true]
      exact settles.mono (Nat.le_succ _) fun _ _ => Nat.le_succ _
    · rw [← reads slot]
      simp only [State.read, State.take, minus, if_true, Goal.reached?, Option.toList_none]
      rfl
  · have refused (slot : Slot α) : State.take ⟨depth, [], .operand slot⟩ (.operator symbol) =
        .refused (.operatorForOperand symbol) false := by
      simp only [State.take, minus, if_false]
    simp only [operand, minus, if_false]
    exact readsOperand_refused refused

theorem readsOperand_operand (token : Token) (below : SettlesBelow α (rest.length + 1)) :
    ReadsOperand (fun stack budget => operand (expression stack) budget ⟨token :: rest, depth⟩)
      ⟨token :: rest, depth⟩ (Position.operand : Slot α → Position α) := by
  cases token with
  | operator symbol => exact readsOperand_operator below
  | number lexeme => exact readsOperand_primary (.number lexeme) false below nofun
  | opening => exact readsOperand_primary .opening false below nofun
  | closing => exact readsOperand_primary .closing false below nofun

/-- The right operand of an operation is read in full and placed behind the left side. -/
theorem operand_settles (depth : Nat) (lhs : Formula α) (op : Operation) (tokens : List Token)
    (below : SettlesBelow α tokens.length) :
    ∃ reading : Reading α α,
      Settles (fun stack budget => operand (expression stack) budget ⟨tokens, depth⟩) reading
        tokens.length depth (nestingLimit - depth) (fun _ => 1) ∧
      State.read .operand ⟨depth, [], .operand (.after lhs op)⟩ [] tokens =
        reading.andThen (Slot.after lhs op).place := by
  cases tokens with
  | nil =>
    exact ⟨⟨.error .missingOperand, ⟨[], depth⟩, []⟩, settles_failed (Nat.le_refl _), rfl⟩
  | cons token rest =>
    obtain ⟨reading, settles, reads⟩ := readsOperand_operand token below
    exact ⟨reading, settles, reads _⟩

end Operand

/-- What an extension has to spare: the operator and one token of the operand, or the closing
parenthesis. -/
def spareTokens : Extension α → Nat
  | .continued _ => 2
  | .closed _ => 1
  | .ended _ => 0

/-- The extensions of the recursive reader are those of the parser. -/
theorem extension_settles (parser : Parser) (lhs : Formula α)
    (below : SettlesBelow α parser.unread.length) :
    Settles (fun stack budget => extension (expression stack) lhs budget parser)
      (parser.extend lhs) parser.unread.length parser.depth (nestingLimit - parser.depth)
      spareTokens := by
  obtain ⟨tokens, depth⟩ := parser
  cases tokens with
  | nil =>
    refine settles_found (Nat.le_refl _) fun extension ok => ?_
    cases ok
    exact ⟨Nat.le_refl _, rfl⟩
  | cons token rest =>
    cases token with
    | number lexeme => exact settles_failed (Nat.le_succ _)
    | opening => exact settles_failed (Nat.le_succ _)
    | closing =>
      refine settles_found (Nat.le_succ _) fun extension ok => ?_
      cases ok
      exact ⟨Nat.le_refl _, rfl⟩
    | operator symbol =>
      cases named : Operation.ofSymbol? symbol with
      | none =>
        simp only [extension, Parser.extend, State.take, State.takeOperator, named, if_true]
        exact settles_failed (Nat.le_succ _)
      | some op =>
        obtain ⟨reading, settles, reads⟩ := operand_settles depth lhs op rest
          fun parser shorter => below parser (Nat.lt_succ_of_lt shorter)
        simp only [extension, Parser.extend, State.take, State.takeOperator, named,
          Option.toList_none, reads, Reading.andThen_map]
        have longer : Settles _ reading (rest.length + 1) depth (nestingLimit - depth) fun _ => 2 :=
          settles.mono (Nat.le_succ _) fun _ _ => Nat.le_refl _
        refine longer.andThen (fun _ _ value left =>
          found (((Slot.after lhs op).place value left).map Extension.continued))
          fun value _ restored _ => settles_found (Nat.le_add_right _ _) ?_
        intro extension ok
        cases ok
        exact ⟨Nat.le_refl _, restored⟩

/-- The rest of an expression is paid for by its tokens, but for the extension that finds the end of
it. -/
theorem remainder_settles (parser : Parser) (lhs : Formula α)
    (below : SettlesBelow α parser.unread.length) :
    Settles (fun stack budget => remainder (expression stack) lhs budget parser)
      (parser.finish lhs) (parser.unread.length + 1) parser.depth (nestingLimit - parser.depth)
      fun _ => min parser.depth 1 := by
  -- The induction is on the tokens, since the loop has no other measure: an extension that goes on
  -- has taken two of them and whatever the groups in its operand took.
  generalize length : parser.unread.length = tokens
  induction tokens using Nat.strongRecOn generalizing parser lhs with
  | ind tokens ih =>
    subst length
    rw [Parser.finish_eq]
    refine ((extension_settles parser lhs below).andThen (fun stack budget extension left =>
      proceed (fun formula => remainder (expression stack) formula budget left) extension left)
      ?_).extended (fun stack => by rw [remainder]) (fun stack budget => by rw [remainder])
    intro extension ok restored shorter
    cases extension with
    | continued formula =>
      simp only [spareTokens] at shorter
      have rest := ih (parser.extend lhs).parser.unread.length (by omega) _ formula
        (fun parser' shorter' => below parser' (by omega)) rfl
      rw [restored] at rest
      exact rest.mono (Nat.le_succ _) fun _ _ => Nat.add_le_add_right (Nat.le_succ _) _
    | ended formula =>
      refine settles_found (Nat.le_refl _) fun value outside => ?_
      have none : (parser.extend lhs).parser.depth = 0 := by
        by_contra inside
        simp only [if_neg inside] at outside
        cases outside
      rw [← restored, none]
      exact ⟨Nat.le_refl _, rfl⟩
    | closed formula =>
      refine settles_found (Nat.le_succ _) fun value _ => ⟨?_, restored⟩
      exact Nat.add_le_add_left (Nat.min_le_right _ _) _

/-- Whatever the tokens are, reading them comes to an end, with the extensions and the levels that
they afford. -/
theorem expression_settles (parser : Parser) : ExpressionSettles α parser := by
  generalize length : parser.unread.length = tokens
  induction tokens using Nat.strongRecOn generalizing parser with
  | ind tokens ih =>
    -- Groups in the first operand and in the extensions behind it are all read from fewer tokens.
    obtain ⟨unread, depth⟩ := parser
    subst length
    have below : SettlesBelow α unread.length :=
      fun parser' shorter => ih _ shorter parser' rfl
    cases unread with
    | nil =>
      exact (settles_failed (Nat.le_refl _)).deeper (fun _ => rfl) fun _ _ => rfl
    | cons token rest =>
      obtain ⟨reading, settles, reads⟩ := readsOperand_operand token below
      have parsed : Parser.parse ⟨token :: rest, depth⟩ = reading.andThen fun value left =>
          (left.finish (.literal value)).andThen fun formula left =>
            ⟨.ok formula.evaluate, left, []⟩ := by
        rw [Parser.parse, Reading.map_eq_andThen, State.read_expression_eq rfl, reads .first,
          Reading.andThen_assoc, Reading.andThen_assoc]
        rfl
      rw [ExpressionSettles, parsed]
      refine (settles.andThen (fun stack budget value left =>
        andThen (remainder (expression stack) (.literal value) budget left) fun formula _ left =>
          found ⟨.ok formula.evaluate, left, []⟩) ?_).deeper (fun _ => rfl) fun _ _ => rfl
      intro value ok restored shorter
      dsimp only at shorter
      have rest := remainder_settles reading.parser (.literal value)
        fun parser' shorter' => below parser' (by omega)
      rw [restored] at rest
      exact rest.andThen (fun _ _ formula left => found ⟨.ok formula.evaluate, left, []⟩)
        fun formula _ restored' _ => settles_found (Nat.le_add_right _ _)
          fun _ _ => ⟨Nat.le_refl _, restored'⟩

end Descent

namespace Parser

/-- What reading from a parser takes at most, whatever its tokens are. -/
structure IsLimited (α : Type) [Arithmetic α] (parser : Parser) : Prop where
  /-- An extension that goes on has taken an operator and an operand. -/
  continued : ∀ lhs formula : Formula α, (parser.extend lhs).result = .ok (.continued formula) →
    (parser.extend lhs).parser.unread.length + 2 ≤ parser.unread.length
  closed : ∀ lhs formula : Formula α, (parser.extend lhs).result = .ok (.closed formula) →
    (parser.extend lhs).parser.unread.length + 1 = parser.unread.length
  ended : ∀ lhs formula : Formula α, (parser.extend lhs).result = .ok (.ended formula) →
    parser.unread = []
  /-- The extensions that the recursive reader makes are those of the parser, and so limited. -/
  extension : ∀ lhs : Formula α, ∃ extensions levels,
    extensions ≤ parser.unread.length ∧ levels ≤ 256 - parser.depth ∧
      Descent.Costs (fun stack budget =>
        Descent.extension (Descent.expression stack) lhs budget parser) (parser.extend lhs)
        extensions levels
  /-- The recursive reader comes to the reading of the parser. In all the calls that it makes there
  is at most one extension more than there are tokens, and at most one level more of calls for
  expressions than there are groups that may still be opened. -/
  expression : ∃ extensions levels,
    extensions ≤ parser.unread.length + 1 ∧ levels ≤ 256 - parser.depth + 1 ∧
      Descent.Costs (fun stack budget => Descent.expression stack budget parser)
        (parser.parse : Reading α α) extensions levels
  /-- It never runs out of as many. -/
  enough : ∃ extensions,
    Descent.expression (256 - parser.depth + 1) (parser.unread.length + 1) parser =
      some ⟨(parser.parse : Reading α α), extensions⟩

/-- Reading always comes to an end. Each extension leaves fewer tokens to those behind it, groups
are read by calls inside one another of which the nesting limit allows only so many, and with these
allowances a reader that makes the calls finds what the parser finds. -/
theorem recursion_limited (parser : Parser) : parser.IsLimited α := by
  have below : Descent.SettlesBelow α parser.unread.length :=
    fun parser' _ => Descent.expression_settles parser'
  have extension (lhs : Formula α) := Descent.extension_settles parser lhs below
  obtain ⟨extensions, levels, costs, within, affords⟩ : Descent.ExpressionSettles α parser :=
    Descent.expression_settles parser
  have paid : extensions ≤ parser.unread.length + 1 := by
    have spent := affords.spent
    omega
  refine ⟨fun lhs formula ok => ?_, fun lhs formula ok => ?_, fun lhs formula ok => ?_,
    fun lhs => ?_, ⟨extensions, levels, paid, within, costs⟩, extensions, ?_⟩
  · obtain ⟨_, _, _, _, affords⟩ := extension lhs
    have spared := affords.spared _ ok
    simp only [Descent.spareTokens] at spared
    omega
  · have continues := continues_of_extend ok
    generalize (parser.extend lhs).parser = left at continues ⊢
    cases continues with
    | closed closing =>
      rw [closing]
      rfl
  · have continues := continues_of_extend ok
    generalize (parser.extend lhs).parser = left at continues
    cases continues with
    | ended exhausted => exact exhausted
  · obtain ⟨extensions, levels, costs, within, affords⟩ := extension lhs
    exact ⟨extensions, levels, Nat.le_trans (Nat.le_add_left _ _) affords.spent, within, costs⟩
  · exact (costs _ _).trans (if_pos ⟨within, paid⟩)

end Parser

end Reckoner
