import Reckoner.Binary64
import Reckoner.Proofs.Nesting
import Reckoner.Proofs.Pursuit

namespace Reckoner

/-- Tokens in parentheses. -/
def parenthesized (tokens : List Token) : List Token :=
  .opening :: tokens ++ [.closing]

variable {α : Type}

/-- An operand is expected at every position that is not behind one. -/
theorem Position.cases_primary (position : Position α) :
    (∃ slot negated, position = .primary slot negated) ∨ ∃ lhs, position = .operator lhs := by
  cases position with
  | operand slot => exact Or.inl ⟨slot, false, rfl⟩
  | signed slot => exact Or.inl ⟨slot, true, rfl⟩
  | operator lhs => exact Or.inr ⟨lhs, rfl⟩

theorem State.reached?_expression (state : State α) : Goal.expression.reached? state = none :=
  rfl

variable [Arithmetic α] {before behind tokens : List Token} {folds : List (Fold α)}
  {outer : Nat} {groups : List (Group α)} {value : α}

/-- What a reading comes to does not depend on the folds that were made before it. -/
theorem State.read_result_congr (state : State α) (early late : List (Fold α))
    (tokens : List Token) : (state.read .expression early tokens).result =
      (state.read .expression late tokens).result := by
  obtain ⟨before, behind, made, last, result, unread, rfl, pursuit, halts⟩ :=
    exists_pursuit .expression state tokens
  have unreached := state.reached?_expression
  rw [pursuit.read_eq halts unreached, pursuit.read_eq halts unreached]

/-- A number or a group takes no part in the rest of a reading but by where it leads. -/
theorem Parser.parse_result_of_leads {start stop : Position α}
    (reach : State.Reach initial before folds ⟨0, groups, start⟩)
    (leads : Leads 0 groups start tokens stop) (behind : List Token) :
    (ofTokens (before ++ (tokens ++ behind))).parse.result =
      (State.read .expression ⟨0, groups, stop⟩ [] behind).result.map Formula.evaluate := by
  obtain ⟨made, further⟩ := leads
  rw [← List.append_assoc, parse_result_of_reach (reach.trans further),
    State.read_result_congr _ _ []]

/-- A group leads where a number with its value leads, if it is not nested too deep there. -/
theorem leads_parenthesized {slot : Slot α} {negated : Bool}
    (derives : Derives .expression nestingLimit tokens value)
    (within : outer + groups.length + 1 + nesting tokens ≤ nestingLimit) :
    Leads outer groups (.primary slot negated) (parenthesized tokens)
      (.operator (slot.fill (signed negated value))) := by
  have group := Derives.group (derives.of_nesting_le (Nat.le_refl _))
  exact group.isRead groups (by omega) slot negated

theorem leads_number {slot : Slot α} {negated : Bool} {lexeme : String}
    (read : Arithmetic.read? lexeme = some value) :
    Leads outer groups (.primary slot negated) [.number lexeme]
      (.operator (slot.fill (signed negated value))) :=
  ⟨_, (State.Step.number read).reach⟩

/-- Behind an operand there is no place for a number or a group. -/
theorem State.stops_of_operator {lhs : Formula α} {token : Token}
    (begins : token = .opening ∨ ∃ lexeme, token = .number lexeme) :
    State.Stops ⟨outer, groups, .operator lhs⟩ token := by
  intro after fold step
  rcases begins with rfl | ⟨lexeme, rfl⟩ <;> cases step.take_eq

/-- In tokens that are nowhere nested too deep, a group leaves room for what it is nested itself. -/
theorem room_of_shallow {state : State α} (reach : State.Reach Parser.initial before folds state)
    (shallow : nesting (before ++ (parenthesized tokens ++ behind)) ≤ nestingLimit) :
    0 + state.groups.length + 1 + nesting tokens ≤ nestingLimit := by
  have count := reach.count_parentheses
  have beginnings := nesting_le_iff.mp shallow
  have opened := beginnings (before ++ [.opening]) (by simp [parenthesized])
  have inside : nesting tokens ≤ nestingLimit - (state.groups.length + 1) := by
    refine nesting_le_iff.mpr fun part front => ?_
    obtain ⟨rest, rfl⟩ := front
    have here := beginnings (before ++ .opening :: part) (by simp [parenthesized])
    simp [List.count_append, Parser.initial] at here count opened ⊢
    omega
  simp [List.count_append, Parser.initial] at opened count
  omega

/-- Behind some tokens either an operand is expected, or a group and a number are both refused
whatever follows them. -/
theorem Parser.primary_expected_or_refused (α : Type) [Arithmetic α] (before : List Token) :
    (∃ folds groups slot negated,
      State.Reach (initial : State α) before folds ⟨0, groups, .primary slot negated⟩) ∨
    ∀ token, (token = .opening ∨ ∃ lexeme, token = .number lexeme) → ∃ fault, ∀ behind,
      (ofTokens (before ++ token :: behind)).parse.result = (.error fault : Except Fault α) := by
  rcases State.reach_or_stops (initial : State α) before with
    ⟨folds, ⟨outer, groups, position⟩, reach⟩ | ⟨front, first, rest, folds, state, rfl, reach, stops⟩
  · have inside : outer = 0 := reach.outer_eq
    subst inside
    rcases position.cases_primary with ⟨slot, negated, rfl⟩ | ⟨lhs, rfl⟩
    · exact Or.inl ⟨folds, groups, slot, negated, reach⟩
    · exact Or.inr fun token begins => parse_result_of_stops reach (State.stops_of_operator begins)
  · -- The tokens are refused before they come to their end.
    obtain ⟨fault, error⟩ := parse_result_of_stops reach stops
    refine Or.inr fun token _ => ⟨fault, fun behind => ?_⟩
    rw [List.append_assoc, List.cons_append]
    exact error _

/-- A group can be exchanged for any other operand of the same value, in whatever tokens it stands,
if these are nowhere nested too deep: another group leaves the result as it is, also where it is an
error, and a number makes no difference to what is accepted and with which value. -/
theorem parse_parenthesized_congr {first second : List Token} {value : α}
    (before behind : List Token)
    (accepted : (Parser.ofTokens first).parse.result = .ok value)
    (accepted' : (Parser.ofTokens second).parse.result = .ok value)
    (shallow : ∀ part, part <+: before ++ (parenthesized first ++ behind) →
      part.count .opening ≤ part.count .closing + 256)
    (shallow' : ∀ part, part <+: before ++ (parenthesized second ++ behind) →
      part.count .opening ≤ part.count .closing + 256) :
    (Parser.ofTokens (before ++ (parenthesized first ++ behind))).parse.result =
        ((Parser.ofTokens (before ++ (parenthesized second ++ behind))).parse.result :
          Except Fault α) ∧
      ∀ lexeme, Arithmetic.read? lexeme = some value → ∀ whole : α,
        (Parser.ofTokens (before ++ .number lexeme :: behind)).parse.result = .ok whole ↔
          (Parser.ofTokens (before ++ (parenthesized first ++ behind))).parse.result =
            .ok whole := by
  have derives := Parser.derives_of_parse_result_eq_ok accepted
  have derives' := Parser.derives_of_parse_result_eq_ok accepted'
  rcases Parser.primary_expected_or_refused α before with
    ⟨folds, groups, slot, negated, reach⟩ | refused
  · have room := room_of_shallow reach (nesting_le_iff.mpr shallow)
    have room' := room_of_shallow reach (nesting_le_iff.mpr shallow')
    have group := Parser.parse_result_of_leads reach (leads_parenthesized derives room) behind
    have group' := Parser.parse_result_of_leads reach (leads_parenthesized derives' room') behind
    refine ⟨group.trans group'.symm, fun lexeme read whole => ?_⟩
    have number := Parser.parse_result_of_leads reach (leads_number read) behind
    rw [group, ← number, List.singleton_append]
  · obtain ⟨fault, error⟩ := refused .opening (Or.inl rfl)
    have group (tokens : List Token) :
        (Parser.ofTokens (before ++ (parenthesized tokens ++ behind))).parse.result =
          (.error fault : Except Fault α) := error _
    refine ⟨(group first).trans (group second).symm, fun lexeme _ whole => ?_⟩
    obtain ⟨fault', error'⟩ := refused (.number lexeme) (Or.inr ⟨lexeme, rfl⟩)
    rw [error' behind, group first]
    exact iff_of_false nofun nofun

/-- Behind `2*-` the group `(0)` can be exchanged for `((0))`, and for `0`. -/
theorem parse_parenthesized_zero :
    let zero : Float := Binary64.ofMagnitude false 0
    let before : List Token := [.number "2", .operator "*", .operator "-"]
    let group := parenthesized [.number "0"]
    let behind : List Token := [.operator "+", .number "1"]
    (Parser.ofTokens [.number "0"]).parse.result = .ok zero ∧
    (Parser.ofTokens group).parse.result = .ok zero ∧ Arithmetic.read? "0" = some zero ∧
    nesting (before ++ (group ++ behind)) = 1 ∧
    nesting (before ++ (parenthesized group ++ behind)) = 2 ∧
    (Parser.ofTokens (before ++ (group ++ behind))).parse.result =
      ((Parser.ofTokens (before ++ (parenthesized group ++ behind))).parse.result :
        Except Fault Float) ∧
    ∀ whole : Float,
      (Parser.ofTokens (before ++ .number "0" :: behind)).parse.result = .ok whole ↔
        (Parser.ofTokens (before ++ (group ++ behind))).parse.result = .ok whole := by
  intro zero before group behind
  have accepted : (Parser.ofTokens [.number "0"]).parse.result = .ok zero := rfl
  have accepted' : (Parser.ofTokens group).parse.result = .ok zero := rfl
  have read : Arithmetic.read? "0" = some zero := rfl
  have nested : nesting (before ++ (group ++ behind)) = 1 := rfl
  have nested' : nesting (before ++ (parenthesized group ++ behind)) = 2 := rfl
  obtain ⟨same, number⟩ := parse_parenthesized_congr before behind accepted accepted'
    (nesting_le_iff.mp (Nat.le_trans (Nat.le_of_eq nested) (by omega)))
    (nesting_le_iff.mp (Nat.le_trans (Nat.le_of_eq nested') (by omega)))
  exact ⟨accepted, accepted', read, nested, nested', same, number "0" read⟩

end Reckoner
