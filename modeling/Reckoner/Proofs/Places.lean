import Reckoner.Proofs.Evaluate

namespace Reckoner

/-- Which of the two formulas below an operation. -/
inductive Side where
  | left
  | right
  deriving DecidableEq

/-- What stands at one place of a formula. -/
inductive Node (α : Type) where
  | number (value : α)
  | operation (op : Operation)
  deriving DecidableEq

namespace Formula

variable {α : Type}

/-- What stands at the place that these sides lead to, from the top down. Nothing stands below a
number. -/
def node? : Formula α → List Side → Option (Node α)
  | literal value, [] => some (.number value)
  | literal _, _ :: _ => none
  | binary _ op _, [] => some (.operation op)
  | binary lhs _ _, .left :: below => lhs.node? below
  | binary _ _ rhs, .right :: below => rhs.node? below

/-- The formula with this number at a place, instead of all that stands there and below. -/
def put (value : α) : List Side → Formula α → Formula α
  | [], _ => literal value
  | _ :: _, literal other => literal other
  | .left :: below, binary lhs op rhs => binary (lhs.put value below) op rhs
  | .right :: below, binary lhs op rhs => binary lhs op (rhs.put value below)

variable {x y : α} {place : List Side} {formula : Formula α}

/-- A number put where it stands already changes nothing. -/
theorem put_self (stands : formula.node? place = some (.number x)) :
    formula.put x place = formula := by
  induction place generalizing formula with
  | nil =>
    cases formula with
    | literal value =>
      cases stands
      rfl
    | binary lhs op rhs => cases stands
  | cons side below ih =>
    cases formula with
    | literal value => cases stands
    | binary lhs op rhs =>
      cases side with
      | left => exact congrArg (binary · op rhs) (ih stands)
      | right => exact congrArg (binary lhs op ·) (ih stands)

/-- A number put in the place of another changes nothing at any other place. -/
theorem node?_put (stands : formula.node? place = some (.number x)) (other : List Side) :
    (formula.put y place).node? other =
      if other = place then some (.number y) else formula.node? other := by
  induction place generalizing formula other with
  | nil =>
    cases formula with
    | literal value => cases other <;> rfl
    | binary lhs op rhs => cases stands
  | cons side below ih =>
    cases formula with
    | literal value => cases stands
    | binary lhs op rhs =>
      cases other with
      | nil => cases side <;> rfl
      | cons first other =>
        cases side <;> cases first <;>
          simp only [put, node?, List.cons.injEq, reduceCtorEq, true_and, false_and, if_false]
        · exact ih stands other
        · exact ih stands other

/-- The right side of every formula ends at a number. -/
theorem exists_last (formula : Formula α) :
    ∃ spine last, formula.node? (List.replicate spine .right) = some (.number last) := by
  induction formula with
  | literal value => exact ⟨0, value, rfl⟩
  | binary lhs op rhs _ ih =>
    obtain ⟨spine, last, stands⟩ := ih
    exact ⟨spine + 1, last, stands⟩

variable [Arithmetic α]

/-- One fold is carried out on the number at the end of the right side. -/
theorem applyRightmost_put (op : Operation) {spine : Nat} {last : α}
    (stands : formula.node? (List.replicate spine .right) = some (.number last)) (x y : α) :
    (formula.put x (List.replicate spine .right)).applyRightmost op y =
      formula.put (op.apply x y) (List.replicate spine .right) := by
  induction spine generalizing formula with
  | zero => rfl
  | succ spine ih =>
    cases formula with
    | literal value => cases stands
    | binary lhs top rhs => exact congrArg (binary lhs top ·) (ih stands)

/-- Folds one after the other are carried out on what the ones before have made of that number. -/
theorem foldl_applyRightmost_put (folds : List (Operation × α)) {spine : Nat} {last : α}
    (stands : formula.node? (List.replicate spine .right) = some (.number last)) (x : α) :
    folds.foldl (fun formula fold => formula.applyRightmost fold.1 fold.2)
        (formula.put x (List.replicate spine .right)) =
      formula.put (folds.foldl (fun value fold => fold.1.apply value fold.2) x)
        (List.replicate spine .right) := by
  induction folds generalizing x with
  | nil => rfl
  | cons fold folds ih =>
    rw [List.foldl_cons, applyRightmost_put fold.1 stands, ih, List.foldl_cons]

/-- Whatever is folded into a formula, and however often, one number of it changes: the one at the
end of its right side, which takes in the operands from the first to the last. All other places keep
what stands there and no place is new or gone, so that evaluating, which goes down the left side,
comes to the value of the same formula with the other number in it. -/
theorem folds_touch_last (formula : Formula α) :
    ∃ spine last, formula.node? (List.replicate spine .right) = some (.number last) ∧
      ∀ folds : List (Operation × α),
        let folded := folds.foldl (fun formula fold => formula.applyRightmost fold.1 fold.2) formula
        let result := folds.foldl (fun value fold => fold.1.apply value fold.2) last
        let replaced := formula.put result (List.replicate spine .right)
        folded = replaced ∧
          (∀ place, folded.node? place =
            if place = List.replicate spine .right then some (.number result)
            else formula.node? place) ∧
          folded.evaluate = replaced.value := by
  obtain ⟨spine, last, stands⟩ := formula.exists_last
  refine ⟨spine, last, stands, fun folds => ?_⟩
  intro folded result replaced
  have carried : folded = replaced := by
    have run := foldl_applyRightmost_put folds stands last
    rwa [put_self stands] at run
  rw [carried]
  exact ⟨rfl, node?_put stands, replaced.evaluate_value⟩

end Formula

end Reckoner
