import Reckoner.Proofs.Extension

namespace Reckoner

variable {α : Type}

namespace Reading

/-- The same reading, behind folds that were made before it. -/
def behind {β : Type} (folds : List (Fold α)) (reading : Reading α β) : Reading α β :=
  { reading with folds := folds ++ reading.folds }

/-- What follows a reading that went well begins where it has left the parser. -/
def andThen {β γ : Type} (reading : Reading α β) (next : β → Parser → Reading α γ) :
    Reading α γ :=
  match reading.result with
  | .error fault => { reading with result := .error fault }
  | .ok value => (next value reading.parser).behind reading.folds

section Laws

variable {β γ δ : Type} {reading : Reading α β}

@[simp] theorem andThen_ok (value : β) (parser : Parser) (next : β → Parser → Reading α γ) :
    (⟨.ok value, parser, []⟩ : Reading α β).andThen next = next value parser :=
  rfl

theorem andThen_of_error {fault : Fault} (next : β → Parser → Reading α γ)
    (failed : reading.result = .error fault) :
    reading.andThen next = { reading with result := .error fault } := by
  simp only [andThen, failed]

theorem andThen_of_ok {value : β} (next : β → Parser → Reading α γ)
    (ok : reading.result = .ok value) :
    reading.andThen next = (next value reading.parser).behind reading.folds := by
  simp only [andThen, ok]

theorem andThen_assoc (next : β → Parser → Reading α γ) (last : γ → Parser → Reading α δ) :
    (reading.andThen next).andThen last =
      reading.andThen fun value parser => (next value parser).andThen last := by
  obtain ⟨result, parser, folds⟩ := reading
  cases result with
  | error fault => rfl
  | ok value =>
    simp only [andThen, behind]
    cases (next value parser).result with
    | error fault => rfl
    | ok value' => simp only [List.append_assoc]

theorem map_eq_andThen (f : β → γ) :
    reading.map f = reading.andThen fun value left => ⟨.ok (f value), left, []⟩ := by
  obtain ⟨result, parser, folds⟩ := reading
  cases result with
  | error fault => rfl
  | ok value => simp only [Reading.map, Except.map, andThen, behind, List.append_nil]

theorem andThen_map (next : β → Parser → Reading α γ) (f : γ → δ) :
    (reading.andThen next).map f = reading.andThen fun value left => (next value left).map f := by
  simp only [map_eq_andThen, andThen_assoc]

theorem map_andThen (f : β → γ) (next : γ → Parser → Reading α δ) :
    (reading.map f).andThen next = reading.andThen fun value => next (f value) := by
  simp only [map_eq_andThen, andThen_assoc, andThen_ok]

end Laws

end Reading

namespace State

/-- The same state, where a group that was left open around the reading counts as one that it has
opened itself. -/
def regroup (group : Group α) (state : State α) : State α :=
  { state with outer := state.outer - 1, groups := state.groups ++ [group] }

theorem depth_regroup {state : State α} (inside : 0 < state.outer) (group : Group α) :
    (state.regroup group).depth = state.depth := by
  simp only [depth, regroup, List.length_append, List.length_singleton]
  omega

theorem atEnd_regroup {state : State α} (inside : 0 < state.outer) (group : Group α) :
    (state.regroup group).atEnd = state.atEnd := by
  have depth := depth_regroup inside group
  obtain ⟨outer, groups, position⟩ := state
  cases position with
  | operand slot => cases slot <;> rfl
  | signed slot => rfl
  | operator lhs =>
    simp only [atEnd]
    rw [depth]
    rfl

end State

variable [Arithmetic α]

/-- What becomes of a slot that an operand with this value is read for. -/
def Slot.place (slot : Slot α) (value : α) (parser : Parser) : Reading α (Formula α) :=
  ⟨.ok (slot.fill value), parser, (slot.fold? value).toList⟩

/-- Reads the expression in a group, whose opening parenthesis has been taken, and leaves the group
behind its closing one. -/
def Parser.readGroup (parser : Parser) : Reading α α :=
  (parse { parser with depth := parser.depth + 1 }).andThen fun value left =>
    ⟨.ok value, { left with depth := left.depth - 1 }, []⟩

namespace State

/-- The folds that have been made before are kept, and have no other part in a reading. -/
theorem read_behind (goal : Goal) (state : State α) (early : List (Fold α)) (tokens : List Token) :
    state.read goal early tokens = (state.read goal [] tokens).behind early.reverse := by
  induction tokens generalizing state early with
  | nil => simp only [read, Reading.behind, List.reverse_nil, List.append_nil]
  | cons token tokens ih =>
    simp only [read]
    cases state.take token with
    | outward formula => simp only [Reading.behind, List.reverse_nil, List.append_nil]
    | refused fault taken => simp only [Reading.behind, List.reverse_nil, List.append_nil]
    | onward next fold =>
      dsimp only
      cases goal.reached? next with
      | some formula => simp only [Reading.behind, List.append_nil, List.reverse_append]
      | none =>
        dsimp only
        rw [ih, ih next (fold.toList ++ [])]
        simp only [Reading.behind, List.append_nil, List.reverse_append, List.append_assoc]

end State

/-- The same move from the state with the group. What led out of all groups now closes this one. -/
def Move.regroup (group : Group α) (outer : Nat) : Move α → Move α
  | .onward next fold => .onward (next.regroup group) fold
  | .outward formula =>
    let value := signed group.negated formula.evaluate
    .onward ⟨outer - 1, [], .operator (group.slot.fill value)⟩ (group.slot.fold? value)
  | .refused fault taken => .refused fault taken

namespace State

variable {state : State α}

theorem takeOperand_regroup (inside : 0 < state.outer) (group : Group α) (slot : Slot α)
    (negated : Bool) (token : Token) :
    (state.regroup group).takeOperand slot negated token =
      (state.takeOperand slot negated token).regroup group state.outer := by
  cases token with
  | operator symbol => rfl
  | closing => rfl
  | number lexeme =>
    simp only [takeOperand]
    cases (Arithmetic.read? lexeme : Option α) <;> rfl
  | opening =>
    simp only [takeOperand, depth_regroup inside]
    split <;> rfl

theorem takeOperator_regroup (group : Group α) (lhs : Formula α) (token : Token) :
    (state.regroup group).takeOperator lhs token =
      (state.takeOperator lhs token).regroup group state.outer := by
  cases token with
  | number lexeme => rfl
  | opening => rfl
  | operator symbol =>
    simp only [takeOperator]
    cases Operation.ofSymbol? symbol <;> rfl
  | closing =>
    obtain ⟨outer, groups, position⟩ := state
    cases groups <;> rfl

/-- To a token it is all the same which reading has opened the group. -/
theorem take_regroup (inside : 0 < state.outer) (group : Group α) (token : Token) :
    (state.regroup group).take token = (state.take token).regroup group state.outer := by
  obtain ⟨outer, groups, position⟩ := state
  cases position with
  | operator lhs => exact takeOperator_regroup group lhs token
  | signed slot => exact takeOperand_regroup inside group slot true token
  | operand slot =>
    cases token with
    | number lexeme => exact takeOperand_regroup inside group slot false (.number lexeme)
    | opening => exact takeOperand_regroup inside group slot false .opening
    | closing => exact takeOperand_regroup inside group slot false .closing
    | operator symbol =>
      simp only [take, regroup]
      split <;> rfl

/-- A group is read as an expression is inside groups that were left open. Its value then takes its
place in the slot that waits for it. -/
theorem read_regroup (inside : 0 < state.outer) (group : Group α) (early : List (Fold α))
    (tokens : List Token) :
    (state.regroup group).read .operand early tokens =
      (state.read .expression early tokens).andThen fun formula left =>
        group.slot.place (signed group.negated formula.evaluate)
          { left with depth := left.depth - 1 } := by
  -- Both readers take the same tokens up to the one that closes the group, where only the outer one
  -- of them is at the end of what it reads.
  induction tokens generalizing state early with
  | nil =>
    simp only [read, atEnd_regroup inside, depth_regroup inside]
    cases ended : state.atEnd with
    | error fault => rfl
    | ok formula =>
      cases atEnd_eq_ok ended
      cases inside
  | cons token tokens ih =>
    simp only [read, take_regroup inside]
    cases taken : state.take token with
    | refused fault behind =>
      simp only [Move.regroup, depth_regroup inside]
      rfl
    | outward formula =>
      obtain ⟨_, outside⟩ := take_eq_outward taken
      rw [outside]
      simp only [Move.regroup, Goal.reached?, if_neg (Nat.ne_of_gt inside), Reading.andThen,
        Slot.place]
      cases group.slot.fold? _ <;> simp [Reading.behind, depth]
    | onward next fold =>
      have outer := (take_eq_onward_iff.mp taken).reach.outer_eq
      have unreached : Goal.operand.reached? (next.regroup group) = none := by
        unfold Goal.reached? regroup
        cases next.groups <;> rfl
      simp only [Move.regroup, unreached]
      exact ih (outer ▸ inside) _

theorem read_group (depth : Nat) (group : Group α) (tokens : List Token) :
    read .operand ⟨depth, [group], .operand .first⟩ [] tokens =
      (Parser.readGroup ⟨tokens, depth⟩).andThen fun value left =>
        group.slot.place (signed group.negated value) left := by
  have inside : 0 < (⟨depth + 1, [], .operand .first⟩ : State α).outer := Nat.succ_pos depth
  rw [Parser.readGroup, Reading.andThen_assoc, Parser.parse, Reading.map_andThen]
  exact read_regroup inside group [] tokens

/-- An expression begins with an operand. -/
theorem read_expression_eq (unreached : Goal.operand.reached? state = none) (early : List (Fold α))
    (tokens : List Token) :
    state.read .expression early tokens =
      (state.read .operand early tokens).andThen fun formula left =>
        read .expression ⟨left.depth, [], .operator formula⟩ [] left.unread := by
  induction tokens generalizing state early with
  | nil =>
    simp only [read]
    cases ended : state.atEnd with
    | error fault => rfl
    | ok formula =>
      rw [atEnd_eq_ok ended] at unreached
      cases unreached
  | cons token tokens ih =>
    simp only [read]
    cases taken : state.take token with
    | refused fault behind => rfl
    | outward formula =>
      rw [(take_eq_outward taken).2] at unreached
      cases unreached
    | onward next fold =>
      have onward : Goal.expression.reached? next = none := rfl
      simp only [onward]
      cases reached : Goal.operand.reached? next with
      | none => exact ih reached _
      | some formula =>
        have behindOperand := eq_of_reached? reached
        rw [read_behind, behindOperand]
        rfl

end State

namespace Parser

/-- Reads the rest of an expression behind the formula `lhs`. -/
def finish (parser : Parser) (lhs : Formula α) : Reading α (Formula α) :=
  State.read .expression ⟨parser.depth, [], .operator lhs⟩ [] parser.unread

/-- What an extension leaves to do. -/
def proceed : Extension α → Parser → Reading α (Formula α)
  | .continued formula, left => left.finish formula
  | .ended formula, left =>
    ⟨if left.depth = 0 then .ok formula else .error .missingClosing, left, []⟩
  | .closed formula, left =>
    ⟨if left.depth = 0 then .error .unmatchedClosing else .ok formula, left, []⟩

/-- The rest of an expression is read by one extension after the other. -/
theorem finish_eq (parser : Parser) (lhs : Formula α) :
    parser.finish lhs = (parser.extend lhs).andThen proceed := by
  obtain ⟨tokens, depth⟩ := parser
  cases tokens with
  | nil => rfl
  | cons token rest =>
    simp only [finish, State.read, extend]
    cases taken : State.take ⟨depth, [], .operator lhs⟩ token with
    | refused fault behind => rfl
    | outward formula => rfl
    | onward next fold =>
      obtain ⟨op, _, rfl, rfl⟩ := (State.take_eq_onward_iff.mp taken).of_operator
      have onward (state : State α) : Goal.expression.reached? state = none := rfl
      simp only [onward, Option.toList_none, List.append_nil]
      rw [State.read_expression_eq rfl]
      simp only [Reading.andThen, Reading.map]
      cases (State.read .operand ⟨depth, [], .operand (.after lhs op)⟩ [] rest).result <;> rfl

end Parser

end Reckoner
