import Reckoner.Proofs.Passing

namespace Reckoner

/-- What can be done with a scanner, at any time and in any order. -/
inductive Step where
  | next
  | setLenient (lenient : Bool)
  | rest
  deriving DecidableEq

/-- The mode behind a step. -/
def Step.mode (lenient : Bool) : Step → Bool
  | setLenient mode => mode
  | next | rest => lenient

/-- The items that the answer to a step tells of: what the scanner stopped at, or, when it has come
to the end with all the rest, the tokens of it. A change of mode is answered with nothing. -/
def Step.told (passage : Passage) : Step → List Item
  | next => passage.stop.toList
  | setLenient _ => []
  | rest =>
    match passage.stop with
    | some item => [item]
    | none => passage.passed.filter Item.isToken

/-- Several steps in one: the items they passed, those they told of, and the scanner behind them. -/
structure Run where
  passed : List Item
  told : List Item
  scanner : Scanner

namespace Scanner

def take (scanner : Scanner) : Step → Passage
  | .next => scanner.next
  | .setLenient lenient => ⟨[], none, scanner.setLenient lenient⟩
  | .rest => scanner.rest

def run (scanner : Scanner) : List Step → Run
  | [] => ⟨[], [], scanner⟩
  | step :: steps =>
    let passage := scanner.take step
    let later := passage.scanner.run steps
    ⟨passage.passed ++ later.passed, step.told passage ++ later.told, later.scanner⟩

/-- The token that was passed last is the current one, and the token before it is kept too. -/
structure Remembers (scanner : Scanner) (passed : List Item) : Prop where
  current_eq : scanner.current = (passed.filterMap Item.token?).getLast?
  last_eq : scanner.last = (passed.filterMap Item.token?).dropLast.getLast?

/-- A scanner that has passed some items is a cursor before the others: what the next step does can
be told from these alone. -/
structure StandsBetween (scanner : Scanner) (passed ahead : List Item) : Prop where
  remembers : scanner.Remembers passed
  /-- A strict step gives the item that follows. -/
  next_strict : scanner.lenient = false →
    scanner.next.stop = ahead.head? ∧ scanner.next.passed = ahead.take 1
  /-- A lenient step passes over characters and gives the token that follows. -/
  next_lenient : scanner.lenient = true →
    scanner.next.stop = ahead.find? Item.isToken ∧
      scanner.next.passed =
        ahead.takeWhile (!Item.isToken ·) ++ (ahead.find? Item.isToken).toList
  /-- The rest is all the tokens up to the end, or everything up to a character and with it. -/
  rest_strict : scanner.lenient = false →
    (∀ item ∈ ahead, item.isToken = true) ∧ scanner.rest.passed = ahead ∧
        scanner.rest.tokens = .ok (ahead.filterMap Item.token?) ∨
      ∃ before found behind, ahead = before ++ .unrecognized found :: behind ∧
        (∀ item ∈ before, item.isToken = true) ∧
        scanner.rest.passed = before ++ [.unrecognized found] ∧
        scanner.rest.tokens = .error found
  rest_lenient : scanner.lenient = true →
    scanner.rest.passed = ahead ∧ scanner.rest.tokens = .ok (ahead.filterMap Item.token?)
  /-- When there is nothing more to find, it stays so. -/
  ended : scanner.next.stop = none →
    ∀ steps, (scanner.next.scanner.run steps).scanner.next.stop = none
  /-- Only a rest that fails keeps tokens to itself. -/
  kept : ∀ step : Step, (step = .rest ∧ ∃ found, scanner.rest.tokens = .error found) ∨
    (step.told (scanner.take step)).filterMap Item.token? =
      (scanner.take step).passed.filterMap Item.token?

variable {scanner : Scanner} {passed ahead : List Item}

section Steps

theorem take_split (scanner : Scanner) (step : Step) :
    scanner.place.items =
      (scanner.take step).passed ++ (scanner.take step).scanner.place.items := by
  cases step with
  | next => exact scanner.next_covers.split
  | setLenient lenient => rfl
  | rest => exact scanner.rest_covers.split

theorem lenient_take (scanner : Scanner) (step : Step) :
    (scanner.take step).scanner.lenient = step.mode scanner.lenient := by
  cases step with
  | next => exact scanner.lenient_next
  | setLenient lenient => rfl
  | rest => exact scanner.lenient_rest

/-- A step tells of nothing but items it has passed, and of each of them at most once. -/
theorem told_sublist (scanner : Scanner) (step : Step) :
    (step.told (scanner.take step)).Sublist (scanner.take step).passed := by
  cases step with
  | next =>
    have covers := scanner.next_covers
    simp only [Step.told, take, covers.stop, covers.passed]
    exact List.sublist_append_right ..
  | setLenient lenient => exact List.Sublist.slnil
  | rest =>
    have covers := scanner.rest_covers
    simp only [Step.told, take]
    split
    · rename_i item stopped
      have stop := covers.stop.symm.trans stopped
      rw [covers.passed, stop]
      exact List.sublist_append_right ..
    · exact List.filter_sublist

theorem Remembers.moveBehind (remembers : scanner.Remembers passed) (item : Item) (place : Place) :
    (scanner.moveBehind item place).Remembers (passed ++ [item]) := by
  obtain ⟨current, last⟩ := remembers
  unfold Scanner.moveBehind
  cases found : item.token? with
  | none =>
    constructor
    · simpa [found] using current
    · simpa [found] using last
  | some token =>
    constructor
    · simp [found]
    · simpa [found] using current

theorem Remembers.passTo {stops : Item → Bool} {earlier before : List Item}
    (remembers : scanner.Remembers (earlier ++ before.reverse)) :
    (scanner.passTo stops before).scanner.Remembers
      (earlier ++ (scanner.passTo stops before).passed) := by
  fun_induction Scanner.passTo stops before scanner with
  | case1 => exact remembers
  | case2 before scanner item behind _ _ =>
    simpa using remembers.moveBehind item behind
  | case3 before scanner item behind _ _ ih =>
    refine ih ?_
    simpa using remembers.moveBehind item behind

theorem Remembers.take (remembers : scanner.Remembers passed) (step : Step) :
    (scanner.take step).scanner.Remembers (passed ++ (scanner.take step).passed) := by
  have start : scanner.Remembers (passed ++ [].reverse) := by simpa using remembers
  cases step with
  | next => exact start.passTo
  | setLenient lenient => exact ⟨start.current_eq, start.last_eq⟩
  | rest => exact start.passTo

end Steps

section Runs

theorem run_split (scanner : Scanner) (steps : List Step) :
    scanner.place.items =
      (scanner.run steps).passed ++ (scanner.run steps).scanner.place.items := by
  induction steps generalizing scanner with
  | nil => rfl
  | cons step steps ih =>
    rw [scanner.take_split step, ih (scanner.take step).scanner, ← List.append_assoc]
    rfl

theorem lenient_run (scanner : Scanner) (steps : List Step) :
    (scanner.run steps).scanner.lenient = steps.foldl Step.mode scanner.lenient := by
  induction steps generalizing scanner with
  | nil => rfl
  | cons step steps ih =>
    rw [List.foldl_cons, ← lenient_take]
    exact ih (scanner.take step).scanner

theorem told_run_sublist (scanner : Scanner) (steps : List Step) :
    (scanner.run steps).told.Sublist (scanner.run steps).passed := by
  induction steps generalizing scanner with
  | nil => exact List.Sublist.slnil
  | cons step steps ih => exact (scanner.told_sublist step).append (ih _)

theorem Remembers.run (remembers : scanner.Remembers passed) (steps : List Step) :
    (scanner.run steps).scanner.Remembers (passed ++ (scanner.run steps).passed) := by
  induction steps generalizing scanner passed with
  | nil => simpa [Scanner.run] using remembers
  | cons step steps ih => simpa [Scanner.run] using ih (remembers.take step)

end Runs

/-- With nothing ahead there is nothing to find, whatever is done before. -/
theorem next_stop_run (ended : scanner.next.stop = none) (steps : List Step) :
    (scanner.next.scanner.run steps).scanner.next.stop = none := by
  have left := scanner.next_covers.left_eq_nil ended
  have split := scanner.next.scanner.run_split steps
  rw [left] at split
  obtain ⟨_, nothing⟩ := List.append_eq_nil_iff.mp split.symm
  rw [((scanner.next.scanner.run steps).scanner.next_covers).stop, nothing, List.find?_nil]

/-- A step tells of every token it passes, unless it is a rest that fails. -/
theorem kept_or_failed (scanner : Scanner) (step : Step) :
    (step = .rest ∧ ∃ found, scanner.rest.tokens = .error found) ∨
      (step.told (scanner.take step)).filterMap Item.token? =
        (scanner.take step).passed.filterMap Item.token? := by
  cases step with
  | next =>
    have covers := scanner.next_covers
    have skipped : ∀ item ∈ scanner.place.items.takeWhile (!scanner.catches ·),
        item.token? = none := by
      intro item inside
      have onward := List.all_eq_true.mp List.all_takeWhile item inside
      simp only [catches, Item.isToken, Bool.not_or, Bool.and_eq_true, Bool.not_eq_true'] at onward
      exact Option.not_isSome_iff_eq_none.mp (Bool.eq_false_iff.mp onward.1)
    right
    simp only [Step.told, take, covers.passed, covers.stop, List.filterMap_append]
    rw [List.filterMap_eq_nil_iff.mpr skipped, List.nil_append]
  | setLenient lenient => exact Or.inr rfl
  | rest =>
    cases stopped : scanner.rest.stop with
    | some item =>
      obtain ⟨found, _, _, failed⟩ := rest_of_stopped stopped
      exact Or.inl ⟨rfl, found, failed⟩
    | none =>
      have same : (fun item : Item => if item.isToken = true then item.token? else none) =
          Item.token? := by
        funext item
        cases item <;> rfl
      right
      simp only [Step.told, take, stopped, List.filterMap_filter, same]

/-- What the next step and the rest come to is told by the items that are left. -/
theorem Remembers.standsBetween (remembers : scanner.Remembers passed) :
    scanner.StandsBetween passed scanner.place.items where
  remembers := remembers
  next_strict := by
    intro strict
    have covers := scanner.next_covers
    rw [catches_eq_of_strict strict] at covers
    rw [covers.stop, covers.passed]
    cases scanner.place.items <;> exact ⟨rfl, rfl⟩
  next_lenient := by
    intro lenient
    have covers := scanner.next_covers
    rw [catches_eq_of_lenient lenient] at covers
    exact ⟨covers.stop, covers.passed⟩
  rest_strict := rest_of_strict
  rest_lenient := rest_of_lenient
  ended := next_stop_run
  kept := kept_or_failed scanner

/-- Whatever is done to a scanner, it is a cursor over the items of its source: those that have been
passed are the first of them, in their order, and each step goes on where the one before it ended.
Nothing is told of twice, since no two items begin at the same place. -/
theorem run_standsBetween (source : String) (steps : List Step) :
    let items := (ofString false source).drain
    let run := (ofString false source).run steps
    ∃ ahead, items = run.passed ++ ahead ∧ run.scanner.StandsBetween run.passed ahead ∧
      run.scanner.lenient = steps.foldl Step.mode false ∧
      run.told.Sublist run.passed ∧
      items.Pairwise fun item later => item.offset < later.offset := by
  intro items run
  have start : (ofString false source).Remembers [] := ⟨rfl, rfl⟩
  have all : items = Place.items ⟨0, source.toList⟩ := drain_ofString source
  refine ⟨run.scanner.place.items, ?_, (start.run steps).standsBetween,
    lenient_run _ steps, told_run_sublist _ steps, ?_⟩
  · rw [all]
    exact run_split (ofString false source) steps
  · rw [all]
    refine (Place.pairwise_items _).2.imp_of_mem fun inside _ after => ?_
    have nonempty := (Place.isSpelled_items _ _ inside).offset_lt_stop
    omega

end Scanner

end Reckoner
