import Reckoner.Binary64
import Reckoner.Proofs.Depth

namespace Reckoner

/-- Of all messages only that of an unmatched parenthesis tells of one. -/
theorem Fault.eq_unmatchedClosing {fault : Fault} (same : fault.message = "Unmatched `)`") :
    fault = .unmatchedClosing := by
  have letter : fault.message.toList[2]? = some 'm' := by rw [same]; rfl
  -- No other message has this third letter, whatever it goes on with.
  have other (first rest : String) (whole : fault.message = first ++ rest)
      (begun : 2 < first.toList.length) : first.toList[2]? = some 'm' := by
    rwa [whole, String.toList_append, List.getElem?_append_left begun] at letter
  cases fault with
  | unmatchedClosing => rfl
  | operatorForOperand symbol =>
    cases other "Expected operand, found operator `" _ (String.append_assoc ..) (by decide)
  | tokenForOperand token =>
    cases other "Expected operand, found `" _ (String.append_assoc ..) (by decide)
  | tokenForOperator token =>
    cases other "Expected operator, found `" _ (String.append_assoc ..) (by decide)
  | unknownOperator symbol =>
    cases other "Unknown operator `" _ (String.append_assoc ..) (by decide)
  | invalidNumber lexeme =>
    cases other "Invalid number literal `" _ (String.append_assoc ..) (by decide)
  | _ => cases letter

namespace State

theorem atEnd_ne_unmatched {α : Type} {state : State α} {fault : Fault}
    (missing : state.atEnd = .error fault) : fault ≠ .unmatchedClosing := by
  rintro rfl
  obtain ⟨outer, groups, position⟩ := state
  cases position with
  | operand slot => cases slot <;> cases missing
  | signed slot => cases missing
  | operator lhs =>
    simp only [atEnd] at missing
    split at missing <;> cases missing

end State

variable {α : Type} [Arithmetic α]

namespace State

/-- No token is refused because it closes nothing. -/
theorem take_ne_unmatched {state : State α} {token : Token} {fault : Fault} {taken : Bool}
    (refused : state.take token = .refused fault taken) : fault ≠ .unmatchedClosing := by
  rintro rfl
  have closing : token = .closing := by
    have found := take_taken? refused
    cases taken <;> cases found
    rfl
  subst closing
  obtain ⟨outer, groups, position⟩ := state
  cases position with
  | operand slot => cases refused
  | signed slot => cases refused
  | operator lhs => cases groups <;> cases refused

/-- Inside open groups an expression is over at the closing parenthesis of the innermost one, and
nowhere else. -/
theorem Halts.expression_ok {state : State α} {tokens unread : List Token} {formula : Formula α}
    (halts : state.Halts .expression tokens (.ok formula) unread) (inside : state.outer ≠ 0) :
    tokens = .closing :: unread ∧ state = ⟨state.outer, [], .operator formula⟩ := by
  generalize ok : Except.ok formula = result at halts
  cases halts with
  | reached reached => cases reached
  | exhausted _ =>
    rw [atEnd_eq_ok ok.symm] at inside
    exact absurd rfl inside
  | outward _ taken =>
    rw [if_neg inside] at ok
    cases ok
    obtain ⟨rfl, outside⟩ := take_eq_outward taken
    exact ⟨rfl, outside⟩
  | refused _ _ => cases ok

theorem Halts.ne_unmatched {state : State α} {tokens unread : List Token} {fault : Fault}
    (halts : state.Halts .expression tokens (.error fault) unread) (inside : state.outer ≠ 0) :
    fault ≠ .unmatchedClosing := by
  generalize failed : Except.error fault = result at halts
  cases halts with
  | reached reached => cases reached
  | exhausted _ => exact atEnd_ne_unmatched failed.symm
  | outward _ _ =>
    rw [if_neg inside] at failed
    cases failed
  | refused _ refused =>
    cases failed
    exact take_ne_unmatched refused

end State

namespace Parser

/-- How an expression is read inside groups that have been left open. -/
structure IsEnclosed (α : Type) [Arithmetic α] (parser : Parser) : Prop where
  /-- The innermost of the groups has to be closed behind the expression. -/
  accepts : ∀ value : α, parser.parse.result = .ok value ↔
    ∃ tokens rest, parser.unread = tokens ++ .closing :: rest ∧
      Derives .expression (256 - parser.depth) tokens value
  /-- What stands behind the group has no part in the reading, and is left unread. -/
  unaffected : ∀ tokens (value : α), Derives .expression (256 - parser.depth) tokens value →
    ∃ folds, ∀ rest, Parser.parse ⟨tokens ++ .closing :: rest, parser.depth⟩ =
      ⟨.ok value, ⟨rest, parser.depth⟩, folds⟩
  matched : ∀ fault, (parser.parse : Reading α α).result = .error fault →
    fault.message ≠ "Unmatched `)`"
  unclosed : ∀ value : α, Derives .expression (256 - parser.depth) parser.unread value →
    ∃ fault, (parser.parse : Reading α α).result = .error fault ∧
      fault.message = "Expected `)`, found EOF"

section Enclosed

variable {parser : Parser} {depth : Nat} {tokens : List Token} {value : α} {fault : Fault}

theorem parse_of_derives (inside : depth ≠ 0)
    (derives : Derives .expression (nestingLimit - depth) tokens value) :
    ∃ folds, ∀ rest, parse ⟨tokens ++ .closing :: rest, depth⟩ =
      ⟨.ok value, ⟨rest, depth⟩, folds⟩ := by
  obtain ⟨formula, folds, rfl, reach⟩ := exists_reach_of_derives _ derives
  refine ⟨folds, fun rest => ?_⟩
  have closed : State.take ⟨depth, [], .operator formula⟩ .closing = .outward formula := rfl
  rw [parse, reach.read_append, List.append_nil]
  simp only [State.read, closed, if_neg inside, List.reverse_reverse]
  rfl

theorem parse_missingClosing (inside : parser.depth ≠ 0)
    (derives : Derives .expression (nestingLimit - parser.depth) parser.unread value) :
    (parser.parse : Reading α α).result = .error .missingClosing := by
  obtain ⟨formula, folds, _, reach⟩ := exists_reach_of_derives _ derives
  have ended : State.atEnd ⟨parser.depth, [], .operator formula⟩ = .error .missingClosing :=
    if_neg inside
  have read := reach.read_append [] []
  rw [List.append_nil] at read
  rw [parse, read]
  simp only [State.read, ended]
  rfl

theorem derives_of_parse (inside : parser.depth ≠ 0) (ok : parser.parse.result = .ok value) :
    ∃ tokens rest, parser.unread = tokens ++ .closing :: rest ∧
      Derives .expression (nestingLimit - parser.depth) tokens value := by
  obtain ⟨before, behind, folds, state, result, left, split, reach, halts, parsed⟩ :=
    exists_parse_eq α parser
  have outer : state.outer = parser.depth := reach.outer_eq
  rw [parsed] at ok
  cases result with
  | error fault => cases ok
  | ok formula =>
    cases ok
    obtain ⟨rfl, same⟩ := halts.expression_ok (outer ▸ inside)
    rw [same, outer] at reach
    exact ⟨before, left, split, reach.derives⟩

theorem parse_ne_unmatched (inside : parser.depth ≠ 0)
    (failed : (parser.parse : Reading α α).result = .error fault) : fault ≠ .unmatchedClosing := by
  obtain ⟨before, behind, folds, state, result, left, split, reach, halts, parsed⟩ :=
    exists_parse_eq α parser
  have outer : state.outer = parser.depth := reach.outer_eq
  rw [parsed] at failed
  cases result with
  | ok formula => cases failed
  | error fault =>
    cases failed
    exact halts.ne_unmatched (outer ▸ inside)

end Enclosed

/-- Inside groups that were left open, an expression ends at the closing parenthesis of the innermost
one, and what follows is not looked at. This holds of every parser that has been left so, whatever
formulas it was extended behind before. -/
theorem parse_enclosed (parser : Parser) (inside : 1 ≤ parser.depth) : parser.IsEnclosed α := by
  have within : parser.depth ≠ 0 := Nat.one_le_iff_ne_zero.mp inside
  refine ⟨fun value => ⟨derives_of_parse within, ?_⟩, fun _ _ => parse_of_derives within,
    fun fault failed same => parse_ne_unmatched within failed (Fault.eq_unmatchedClosing same),
    fun value derives => ⟨_, parse_missingClosing within derives, rfl⟩⟩
  rintro ⟨tokens, rest, unread, derives⟩
  obtain ⟨folds, read⟩ := parse_of_derives within derives
  have same : parser = ⟨tokens ++ .closing :: rest, parser.depth⟩ := by rw [← unread]
  rw [same, read rest]

/-- In `+()0)(` the first closing parenthesis is refused, and leaves one group open. Then `0` and the
other closing parenthesis are read. -/
theorem parse_enclosed_zero :
    let zero : Float := Binary64.ofMagnitude false 0
    let tokens : List Token :=
      [.operator "+", .opening, .closing, .number "0", .closing, .opening]
    let parser := (ofTokens tokens).extendAll [.literal zero]
    parser = ⟨[.number "0", .closing, .opening], 1⟩ ∧ 1 ≤ parser.depth ∧
      parser.parse.result = .ok zero ∧ parser.IsEnclosed Float := by
  intro zero tokens parser
  have left : parser = ⟨[.number "0", .closing, .opening], 1⟩ := rfl
  have inside : 1 ≤ parser.depth := Nat.le_refl 1
  exact ⟨left, inside, rfl, parse_enclosed parser inside⟩

end Parser

end Reckoner
