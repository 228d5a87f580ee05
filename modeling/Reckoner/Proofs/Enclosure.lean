import Reckoner.Proofs.Acceptance
import Reckoner.Proofs.Nesting

namespace Reckoner

/-- Tokens in this many pairs of parentheses. -/
def enclosed (count : Nat) (tokens : List Token) : List Token :=
  List.replicate count .opening ++ tokens ++ List.replicate count .closing

theorem enclosed_succ (count : Nat) (tokens : List Token) :
    enclosed (count + 1) tokens = .opening :: enclosed count tokens ++ [.closing] := by
  have closings : List.replicate (count + 1) Token.closing = List.replicate count .closing ++ [_] :=
    List.replicate_succ'
  rw [enclosed, closings, List.replicate_succ, ← List.append_assoc]
  rfl

variable {α : Type} [Arithmetic α]

/-- Parentheses around an expression change nothing but how deep it is nested. -/
theorem Derives.enclosed {levels : Nat} {tokens : List Token} {value : α}
    (derives : Derives .expression levels tokens value) (count : Nat) :
    Derives .expression (levels + count) (enclosed count tokens) value := by
  induction count with
  | zero => simpa [Reckoner.enclosed] using derives
  | succ count ih =>
    rw [enclosed_succ]
    exact .summand (.factor (.plain (.group ih)))

namespace State

/-- The same state inside more groups. -/
def enclose (state : State α) (around : List (Group α)) : State α :=
  { state with groups := state.groups ++ around }

/-- A step is the same inside more groups, unless it opens one too many. -/
theorem Step.enclose {state after : State α} {token : Token} {fold : Option (Fold α)}
    (step : Step state token after fold) (around : List (Group α)) :
    Step (state.enclose around) token (after.enclose around) fold ∨
      (state.enclose around).take token = .refused .nestingTooDeep true := by
  cases step with
  | sign => exact Or.inl .sign
  | number read => exact Or.inl (.number read)
  | operator => exact Or.inl .operator
  | closing => exact Or.inl .closing
  | @opening outer groups slot negated _ =>
    by_cases room : outer + (groups ++ around).length < nestingLimit
    · exact Or.inl (.opening room)
    · refine Or.inr ?_
      unfold State.enclose
      rw [take_primary (by simp)]
      exact if_pos (Nat.not_lt.mp room)

/-- Tokens lead the same way inside more groups, unless one of them opens one too many. -/
theorem Reach.enclose {state after : State α} {tokens : List Token} {folds : List (Fold α)}
    (reach : Reach state tokens folds after) (around : List (Group α)) :
    Reach (state.enclose around) tokens folds (after.enclose around) ∨
      ∃ before token behind made middle, tokens = before ++ token :: behind ∧
        Reach (state.enclose around) before made middle ∧
        middle.take token = .refused .nestingTooDeep true := by
  induction reach with
  | start => exact Or.inl .start
  | @next tokens folds middle token after fold _ step ih =>
    rcases ih with inside | ⟨before, first, behind, made, last, rfl, inside, refused⟩
    · rcases step.enclose around with further | refused
      · exact Or.inl (.next inside further)
      · exact Or.inr ⟨tokens, token, [], folds, _, rfl, inside, refused⟩
    · refine Or.inr ⟨before, first, behind ++ [token], made, last, ?_, inside, refused⟩
      rw [List.append_assoc, List.cons_append]

/-- As many groups can be opened one in another as the limit allows. -/
theorem reach_openings {count : Nat} (within : count ≤ nestingLimit) :
    Reach (Parser.initial : State α) (List.replicate count .opening) []
      (Parser.initial.enclose (List.replicate count ⟨.first, false⟩)) := by
  induction count with
  | zero => exact .start
  | succ count ih =>
    have room : 0 + (List.replicate count (⟨.first, false⟩ : Group α)).length < nestingLimit := by
      rw [List.length_replicate]
      omega
    have opening : Step ⟨0, List.replicate count ⟨.first, false⟩, .primary .first false⟩ .opening
        ⟨0, ⟨.first, false⟩ :: List.replicate count ⟨.first, false⟩, .operand .first⟩ none :=
      .opening room
    rw [List.replicate_succ']
    exact .next (ih (by omega)) opening

end State

namespace Parser

theorem parse_result_of_refused {before : List Token} {token : Token} {fault : Fault}
    {taken : Bool} {folds : List (Fold α)} {state : State α}
    (reach : State.Reach initial before folds state) (behind : List Token)
    (refused : state.take token = .refused fault taken) :
    (ofTokens (before ++ token :: behind)).parse.result = (.error fault : Except Fault α) := by
  rw [parse_result_of_reach reach]
  simp only [State.read, refused]
  rfl

/-- Past the limit parentheses are refused where the first of them is too deep. -/
theorem parse_openings_tooDeep {count : Nat} (past : nestingLimit < count) (behind : List Token) :
    (ofTokens (List.replicate count .opening ++ behind)).parse.result =
      (.error .nestingTooDeep : Except Fault α) := by
  obtain ⟨more, split⟩ : ∃ more, count = nestingLimit + (more + 1) :=
    ⟨count - nestingLimit - 1, by omega⟩
  let full : State α := initial.enclose (List.replicate nestingLimit ⟨.first, false⟩)
  have refused : full.take .opening = .refused .nestingTooDeep true := by
    simp [full, State.take, State.takeOperand, State.depth, State.enclose, initial]
  have openings : State.Reach initial (List.replicate nestingLimit .opening) [] full :=
    State.reach_openings (Nat.le_refl nestingLimit)
  rw [split, ← List.replicate_append_replicate, List.replicate_succ, List.append_assoc, List.cons_append]
  exact parse_result_of_refused openings _ refused

/-- An expression in parentheses has its value as long as it is not nested too deep in them, and
then the first parenthesis past the limit is refused, be it one of those around the expression or one
inside. -/
theorem parse_result_enclosed {tokens : List Token} {value : α}
    (derives : Derives .expression nestingLimit tokens value) (count : Nat) :
    (ofTokens (enclosed count tokens)).parse.result =
      if nesting tokens + count ≤ nestingLimit then .ok value else .error .nestingTooDeep := by
  by_cases within : nesting tokens + count ≤ nestingLimit
  · have inside := (derives.of_nesting_le (Nat.le_refl (nesting tokens))).enclosed count
    have deep : nesting (enclosed count tokens) ≤ nestingLimit :=
      Nat.le_trans inside.nesting_le within
    rw [if_pos within, parse_result_of_derives (inside.of_nesting_le deep)]
  rw [if_neg within]
  by_cases past : nestingLimit < count
  · rw [enclosed, List.append_assoc]
    exact parse_openings_tooDeep past _
  -- The parentheses around it can all be opened, and the expression cannot be read to its end.
  have openings : State.Reach (initial : State α) _ [] _ :=
    State.reach_openings (Nat.not_lt.mp past)
  obtain ⟨formula, folds, _, reach⟩ := exists_reach_of_derives 0 derives
  rcases reach.enclose (List.replicate count ⟨.first, false⟩) with
    inside | ⟨before, token, behind, made, middle, rfl, inside, refused⟩
  · have shallow : nesting tokens ≤ nestingLimit - count := by
      refine nesting_le_iff.mpr fun before part => ?_
      have account := (openings.trans inside).count_beginning (Nat.zero_le _)
        ((List.prefix_append_right_inj _).mpr part)
      simp [List.count_append, List.count_replicate, initial, State.depth] at account
      omega
    omega
  · have parsed := parse_result_of_refused (openings.trans inside)
      (behind ++ List.replicate count .closing) refused
    simpa only [enclosed, List.append_assoc, List.cons_append] using parsed

end Parser

end Reckoner
