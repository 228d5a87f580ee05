import Mathlib.Data.List.Induction
import Reckoner.Proofs.Step

namespace Reckoner.State

variable {α : Type} [Arithmetic α]

/-- Tokens that are all taken lead from the initial state to another one. The folds that are made
on the way are kept in order. -/
inductive Reach (initial : State α) : List Token → List (Fold α) → State α → Prop
  | start : Reach initial [] [] initial
  | next {tokens folds state token after fold} : Reach initial tokens folds state →
      Step state token after fold → Reach initial (tokens ++ [token]) (folds ++ fold.toList) after

theorem Step.reach {state after : State α} {token : Token} {fold : Option (Fold α)}
    (step : Step state token after fold) : Reach state [token] fold.toList after :=
  .next .start step

theorem Reach.trans {initial middle final : State α} {before tokens : List Token}
    {early late : List (Fold α)} (first : Reach initial before early middle)
    (second : Reach middle tokens late final) :
    Reach initial (before ++ tokens) (early ++ late) final := by
  induction second with
  | start => simpa only [List.append_nil] using first
  | next _ step ih =>
    rw [← List.append_assoc, ← List.append_assoc]
    exact .next ih step

/-- The groups that were open before the reading began are never closed by it. -/
theorem Reach.outer_eq {initial state : State α} {tokens : List Token} {folds : List (Fold α)}
    (reach : Reach initial tokens folds state) : state.outer = initial.outer := by
  induction reach with
  | start => rfl
  | next _ step ih => cases step <;> exact ih

/-- Each opening parenthesis opens one group, and each closing one closes one. -/
theorem Reach.count_parentheses {initial state : State α} {tokens : List Token}
    {folds : List (Fold α)} (reach : Reach initial tokens folds state) :
    initial.groups.length + tokens.count .opening =
      state.groups.length + tokens.count .closing := by
  induction reach with
  | start => rfl
  | next _ step ih =>
    cases step <;> simp [List.count_append] at ih ⊢ <;> omega

/-- No run gets past the nesting limit. -/
theorem Reach.depth_le {initial state : State α} {tokens : List Token} {folds : List (Fold α)}
    (reach : Reach initial tokens folds state) (bounded : initial.depth ≤ nestingLimit) :
    state.depth ≤ nestingLimit := by
  induction reach with
  | start => exact bounded
  | next _ step ih => cases step <;> simp only [depth, List.length_cons] at ih ⊢ <;> omega

/-- The depth is told by the parentheses that have been taken. -/
theorem Reach.depth_eq {initial state : State α} {tokens : List Token} {folds : List (Fold α)}
    (reach : Reach initial tokens folds state) :
    state.depth + tokens.count .closing = initial.depth + tokens.count .opening := by
  have count := reach.count_parentheses
  have outer := reach.outer_eq
  unfold depth
  omega

/-- The last of the tokens is taken behind the others. -/
theorem Reach.last {initial state : State α} {before : List Token} {token : Token}
    {folds : List (Fold α)} (reach : Reach initial (before ++ [token]) folds state) :
    ∃ early middle fold, Reach initial before early middle ∧ Step middle token state fold ∧
      folds = early ++ fold.toList := by
  generalize whole : before ++ [token] = tokens at reach
  cases reach with
  | start => cases (List.append_eq_nil_iff.mp whole).2
  | next reach step =>
    obtain ⟨rfl, same⟩ := List.append_inj' whole rfl
    cases same
    exact ⟨_, _, _, reach, step, rfl⟩

/-- Tokens that are all taken can be taken up to any point among them. -/
theorem Reach.split {initial state : State α} {before behind : List Token} {folds : List (Fold α)}
    (reach : Reach initial (before ++ behind) folds state) :
    ∃ early middle late, Reach initial before early middle ∧ Reach middle behind late state ∧
      folds = early ++ late := by
  induction behind using List.reverseRecOn generalizing folds state with
  | nil =>
    rw [List.append_nil] at reach
    exact ⟨folds, state, [], reach, .start, (List.append_nil folds).symm⟩
  | append_singleton behind token ih =>
    rw [← List.append_assoc] at reach
    obtain ⟨_, _, fold, shorter, step, rfl⟩ := reach.last
    obtain ⟨early, middle, late, first, second, rfl⟩ := ih shorter
    exact ⟨early, middle, _, first, .next second step, List.append_assoc ..⟩

/-- Tokens lead to one state at most, and with the same folds. -/
theorem Reach.unique {initial state other : State α} {tokens : List Token}
    {folds folds' : List (Fold α)} (reach : Reach initial tokens folds state)
    (reach' : Reach initial tokens folds' other) : other = state ∧ folds' = folds := by
  induction reach generalizing folds' other with
  | start =>
    generalize none : [] = tokens at reach'
    cases reach' with
    | start => exact ⟨rfl, rfl⟩
    | next _ _ => cases (List.append_eq_nil_iff.mp none.symm).2
  | next _ step ih =>
    obtain ⟨early, middle, fold, before, last, rfl⟩ := reach'.last
    obtain ⟨rfl, rfl⟩ := ih before
    have same := last.take_eq.symm.trans step.take_eq
    cases same
    exact ⟨rfl, rfl⟩

/-- The first of the tokens leads onward from where they begin. -/
theorem Reach.exists_step {initial state : State α} {token : Token} {behind : List Token}
    {folds : List (Fold α)} (reach : Reach initial (token :: behind) folds state) :
    ∃ after fold, Step initial token after fold := by
  rw [← List.singleton_append] at reach
  obtain ⟨_, after, _, first, _⟩ := reach.split
  rw [← List.nil_append [token]] at first
  obtain ⟨_, _, fold, nothing, step, _⟩ := first.last
  rw [(Reach.start.unique nothing).1] at step
  exact ⟨after, fold, step⟩

/-- No part of what is taken closes a group that was not opened in it, or opens one too many. -/
theorem Reach.count_beginning {initial state : State α} {before tokens : List Token}
    {folds : List (Fold α)} (reach : Reach initial tokens folds state)
    (bounded : initial.depth ≤ nestingLimit) (part : before <+: tokens) :
    before.count .closing ≤ initial.groups.length + before.count .opening ∧
      initial.depth + before.count .opening ≤ nestingLimit + before.count .closing := by
  obtain ⟨behind, rfl⟩ := part
  obtain ⟨early, middle, late, first, _⟩ := reach.split
  have count := first.count_parentheses
  have depth := first.depth_eq
  have limit := first.depth_le bounded
  omega

/-- Reading an expression takes the tokens that lead onward one after the other. -/
theorem Reach.read_append {initial state : State α} {tokens : List Token} {folds : List (Fold α)}
    (reach : Reach initial tokens folds state) (early : List (Fold α)) (more : List Token) :
    initial.read .expression early (tokens ++ more) =
      state.read .expression (folds.reverse ++ early) more := by
  induction reach generalizing more with
  | start => rfl
  | next _ step ih =>
    rw [List.append_assoc, ih, List.singleton_append, read, step.take_eq]
    cases ‹Option (Fold α)› <;> simp [Goal.reached?]

/-- No step leads onward from here. -/
def Stops (state : State α) (token : Token) : Prop :=
  ∀ after fold, ¬Step state token after fold

/-- Tokens either are all taken, or there is a first one that is not. -/
theorem reach_or_stops (initial : State α) (tokens : List Token) :
    (∃ folds state, Reach initial tokens folds state) ∨
      ∃ before token rest folds state, tokens = before ++ token :: rest ∧
        Reach initial before folds state ∧ state.Stops token := by
  induction tokens using List.reverseRecOn with
  | nil => exact Or.inl ⟨[], initial, .start⟩
  | append_singleton tokens token ih =>
    rcases ih with ⟨folds, state, reach⟩ | ⟨before, first, rest, folds, state, split, reach, stops⟩
    · by_cases goesOn : ∃ after fold, Step state token after fold
      · obtain ⟨after, fold, step⟩ := goesOn
        exact Or.inl ⟨_, after, .next reach step⟩
      · refine Or.inr ⟨tokens, token, [], folds, state, rfl, reach, ?_⟩
        intro after fold step
        exact goesOn ⟨after, fold, step⟩
    · refine Or.inr ⟨before, first, rest ++ [token], folds, state, ?_, reach, stops⟩
      rw [split, List.append_assoc, List.cons_append]

end Reckoner.State
