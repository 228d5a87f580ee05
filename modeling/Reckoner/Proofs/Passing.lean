import Reckoner.Proofs.Layout

namespace Reckoner

/-- A passage goes over the first of some items, up to one that `stops` holds of. Those behind it
are left to the scanner. -/
structure Passage.Covers (stops : Item → Bool) (items : List Item) (passage : Passage) : Prop where
  stop : passage.stop = items.find? stops
  passed : passage.passed = items.takeWhile (!stops ·) ++ (items.find? stops).toList
  left : passage.scanner.place.items = (items.dropWhile (!stops ·)).tail

/-- Nothing is lost between what is passed and what is left. -/
theorem Passage.Covers.split {stops : Item → Bool} {items : List Item} {passage : Passage}
    (covers : passage.Covers stops items) :
    items = passage.passed ++ passage.scanner.place.items := by
  rw [covers.passed, covers.left]
  clear covers
  induction items with
  | nil => rfl
  | cons item items ih =>
    cases stopped : stops item with
    | true => simp [stopped]
    | false => simpa [stopped] using ih

/-- What `stops` holds of among some items is found by passing over them again and again. -/
theorem Passage.Covers.filter_eq {stops : Item → Bool} {items : List Item} {passage : Passage}
    (covers : passage.Covers stops items) :
    items.filter stops = passage.stop.toList ++ passage.scanner.place.items.filter stops := by
  have onward : (items.takeWhile (!stops ·)).filter stops = [] := by
    refine List.filter_eq_nil_iff.mpr fun item inside => ?_
    simpa using List.all_eq_true.mp List.all_takeWhile item inside
  have stopped : (items.find? stops).toList.filter stops = (items.find? stops).toList :=
    List.filter_eq_self.mpr fun item inside => List.find?_some (Option.mem_toList.mp inside)
  have whole := congrArg (List.filter stops) covers.split
  rwa [List.filter_append, covers.passed, List.filter_append, onward, stopped, List.nil_append,
    ← covers.stop] at whole

/-- A passage that nothing stops leaves nothing. -/
theorem Passage.Covers.left_eq_nil {stops : Item → Bool} {items : List Item} {passage : Passage}
    (covers : passage.Covers stops items) (unstopped : passage.stop = none) :
    passage.scanner.place.items = [] := by
  have none := List.find?_eq_none.mp (covers.stop.symm.trans unstopped)
  have onward : ∀ item ∈ items, (!stops item) = true := by
    intro item inside
    simpa using none item inside
  have dropped : (items ++ []).dropWhile (!stops ·) = [] := List.dropWhile_append_of_pos onward
  rw [List.append_nil] at dropped
  rw [covers.left, dropped]
  rfl

namespace Scanner

variable {scanner : Scanner}

@[simp] theorem moveBehind_lenient (scanner : Scanner) (item : Item) (place : Place) :
    (scanner.moveBehind item place).lenient = scanner.lenient := by
  unfold moveBehind
  split <;> rfl

theorem passTo_lenient (stops : Item → Bool) (passed : List Item) (scanner : Scanner) :
    (scanner.passTo stops passed).scanner.lenient = scanner.lenient := by
  fun_induction passTo stops passed scanner with
  | case1 => rfl
  | case2 => exact moveBehind_lenient ..
  | case3 _ _ _ _ _ _ ih => exact ih.trans (moveBehind_lenient ..)

theorem passTo_eq (stops : Item → Bool) (passed : List Item) (scanner : Scanner) :
    (scanner.passTo stops passed).stop = scanner.place.items.find? stops ∧
      (scanner.passTo stops passed).passed = passed.reverse ++
        (scanner.place.items.takeWhile (!stops ·) ++ (scanner.place.items.find? stops).toList) ∧
      (scanner.passTo stops passed).scanner.place.items =
        (scanner.place.items.dropWhile (!stops ·)).tail := by
  fun_induction passTo stops passed scanner with
  | case1 passed scanner ended => simp [Place.items_of_first?_none ended]
  | case2 passed scanner item behind found stop => simp [Place.items_of_first? found, stop]
  | case3 passed scanner item behind found onward ih =>
    rw [moveBehind_place] at ih
    simp [Place.items_of_first? found, onward, ih]

theorem passTo_covers (stops : Item → Bool) (scanner : Scanner) :
    (scanner.passTo stops []).Covers stops scanner.place.items :=
  have ⟨stop, passed, left⟩ := passTo_eq stops [] scanner
  ⟨stop, passed, left⟩

/-- Whether the next step ends at an item. -/
def catches (scanner : Scanner) (item : Item) : Bool :=
  item.isToken || scanner.rejects item

theorem next_covers (scanner : Scanner) :
    scanner.next.Covers scanner.catches scanner.place.items :=
  passTo_covers scanner.catches scanner

theorem rest_covers (scanner : Scanner) :
    scanner.rest.Covers scanner.rejects scanner.place.items :=
  passTo_covers scanner.rejects scanner

@[simp] theorem lenient_next (scanner : Scanner) : scanner.next.scanner.lenient = scanner.lenient :=
  passTo_lenient scanner.catches [] scanner

@[simp] theorem lenient_rest (scanner : Scanner) : scanner.rest.scanner.lenient = scanner.lenient :=
  passTo_lenient scanner.rejects [] scanner

theorem rejects_eq_of_strict (strict : scanner.lenient = false) :
    scanner.rejects = fun item => !item.isToken := by
  funext item
  simp [rejects, strict, Item.isSome_unrecognized?]

theorem rejects_eq_of_lenient (lenient : scanner.lenient = true) :
    scanner.rejects = fun _ => false := by
  funext item
  simp [rejects, lenient]

theorem catches_eq_of_strict (strict : scanner.lenient = false) :
    scanner.catches = fun _ => true := by
  funext item
  simp [catches, rejects_eq_of_strict strict]

theorem catches_eq_of_lenient (lenient : scanner.lenient = true) :
    scanner.catches = Item.isToken := by
  funext item
  simp [catches, rejects_eq_of_lenient lenient]

/-- What stops the next step depends on the mode alone. -/
theorem catches_congr {other : Scanner} (same : other.lenient = scanner.lenient) :
    other.catches = scanner.catches := by
  funext item
  simp [catches, rejects, same]

section Rest

/-- A rest that nothing stops is all that was left. -/
theorem rest_of_unstopped (unstopped : scanner.rest.stop = none) :
    scanner.rest.passed = scanner.place.items ∧
      scanner.rest.tokens = .ok (scanner.place.items.filterMap Item.token?) := by
  have split := scanner.rest_covers.split
  rw [scanner.rest_covers.left_eq_nil unstopped, List.append_nil] at split
  refine ⟨split.symm, ?_⟩
  simp [Passage.tokens, Passage.found, unstopped, split]

/-- A rest is stopped by nothing but a character, and only in the strict mode. -/
theorem rest_of_stopped {item : Item} (stopped : scanner.rest.stop = some item) :
    ∃ found, item = .unrecognized found ∧ scanner.lenient = false ∧
      scanner.rest.tokens = .error found := by
  have rejected := List.find?_some (scanner.rest_covers.stop.symm.trans stopped)
  simp only [rejects, Bool.and_eq_true, Bool.not_eq_true'] at rejected
  cases item with
  | token => simp [Item.unrecognized?] at rejected
  | unrecognized found =>
    refine ⟨found, rfl, rejected.1, ?_⟩
    simp [Passage.tokens, stopped, Item.unrecognized?]

theorem rest_of_lenient (lenient : scanner.lenient = true) :
    scanner.rest.passed = scanner.place.items ∧
      scanner.rest.tokens = .ok (scanner.place.items.filterMap Item.token?) := by
  refine rest_of_unstopped ?_
  rw [scanner.rest_covers.stop, rejects_eq_of_lenient lenient]
  simp

/-- A strict rest goes to the end over tokens alone, or up to the first character. -/
theorem rest_of_strict (strict : scanner.lenient = false) :
    (∀ item ∈ scanner.place.items, item.isToken = true) ∧
        scanner.rest.passed = scanner.place.items ∧
        scanner.rest.tokens = .ok (scanner.place.items.filterMap Item.token?) ∨
      ∃ before found behind, scanner.place.items = before ++ .unrecognized found :: behind ∧
        (∀ item ∈ before, item.isToken = true) ∧
        scanner.rest.passed = before ++ [.unrecognized found] ∧
        scanner.rest.tokens = .error found := by
  have covers := scanner.rest_covers
  rw [rejects_eq_of_strict strict] at covers
  cases stopped : scanner.rest.stop with
  | none =>
    have all := List.find?_eq_none.mp (covers.stop.symm.trans stopped)
    exact Or.inl ⟨fun item inside => by simpa using all item inside, rest_of_unstopped stopped⟩
  | some item =>
    obtain ⟨found, rfl, _, tokens⟩ := rest_of_stopped stopped
    have split := covers.split
    have passed := covers.passed
    rw [← covers.stop, stopped, Option.toList_some] at passed
    rw [passed, List.append_assoc, List.singleton_append] at split
    refine Or.inr ⟨_, found, _, split, fun item inside => ?_, passed, tokens⟩
    have onward := List.all_eq_true.mp List.all_takeWhile item inside
    simpa using onward

end Rest

theorem length_next_lt {item : Item} (found : scanner.next.stop = some item) :
    scanner.next.scanner.place.items.length < scanner.place.items.length := by
  have split := scanner.next_covers.split
  have passed := scanner.next_covers.passed
  rw [← scanner.next_covers.stop, found] at passed
  have lengths := congrArg List.length split
  simp only [passed, List.length_append, Option.toList_some, List.length_singleton] at lengths
  omega

/-- What a scanner finds one after the other until there is nothing left. -/
def drain (scanner : Scanner) : List Item :=
  match _ : scanner.next.stop with
  | none => []
  | some item => item :: scanner.next.scanner.drain
termination_by scanner.place.items.length
decreasing_by exact length_next_lt ‹_›

theorem drain_eq (scanner : Scanner) :
    scanner.drain = scanner.place.items.filter scanner.catches := by
  fun_induction drain scanner with
  | case1 scanner ended =>
    have stop := scanner.next_covers.stop
    rw [ended] at stop
    exact (List.filter_eq_nil_iff.mpr (List.find?_eq_none.mp stop.symm)).symm
  | case2 scanner item found ih =>
    rw [ih, scanner.next_covers.filter_eq, found, catches_congr scanner.lenient_next]
    rfl

/-- A strict scanner finds every item. -/
theorem drain_eq_of_strict (strict : scanner.lenient = false) :
    scanner.drain = scanner.place.items := by
  rw [drain_eq, catches_eq_of_strict strict]
  exact List.filter_eq_self.mpr fun _ _ => rfl

theorem drain_ofString (source : String) :
    (ofString false source).drain = Place.items ⟨0, source.toList⟩ :=
  drain_eq_of_strict rfl

end Scanner

section Scan

variable (source : String)

theorem scan_lenient :
    scan true source = .ok ((Place.items ⟨0, source.toList⟩).filterMap Item.token?) :=
  have lenient : (Scanner.ofString true source).lenient = true := rfl
  (Scanner.rest_of_lenient lenient).2

/-- A strict scan goes to the end over tokens alone, or up to the first character that is none. -/
theorem scan_strict :
    (∃ tokens, Place.Holds ⟨0, source.toList⟩ tokens ∧ scan false source = .ok tokens) ∨
      ∃ before found behind,
        Place.items ⟨0, source.toList⟩ = before ++ .unrecognized found :: behind ∧
        (∀ item ∈ before, item.isToken = true) ∧ scan false source = .error found := by
  have strict : (Scanner.ofString false source).lenient = false := rfl
  rcases Scanner.rest_of_strict strict with
    ⟨all, _, tokens⟩ | ⟨before, found, behind, split, all, _, failed⟩
  · exact Or.inl ⟨_, ⟨all, rfl⟩, tokens⟩
  · exact Or.inr ⟨before, found, behind, split, all, failed⟩

/-- A scan that goes well gives the tokens of the source, in either mode. -/
theorem tokens_of_scan {lenient : Bool} {tokens : List Token}
    (scanned : scan lenient source = .ok tokens) :
    (Place.items ⟨0, source.toList⟩).filterMap Item.token? = tokens := by
  cases lenient with
  | true =>
    rw [scan_lenient] at scanned
    exact Except.ok.inj scanned
  | false =>
    rcases scan_strict source with ⟨others, holds, scanned'⟩ | ⟨_, _, _, _, _, failed⟩
    · rw [scanned'] at scanned
      cases scanned
      exact holds.tokens_eq
    · rw [failed] at scanned
      cases scanned

/-- A source that holds nothing but tokens is scanned alike in both modes. -/
theorem scan_of_holds {tokens : List Token} (holds : Place.Holds ⟨0, source.toList⟩ tokens)
    (lenient : Bool) : scan lenient source = .ok tokens := by
  cases lenient with
  | true => rw [scan_lenient, holds.tokens_eq]
  | false =>
    rcases scan_strict source with ⟨others, same, scanned⟩ | ⟨before, found, behind, split, _⟩
    · rw [scanned, ← same.tokens_eq, holds.tokens_eq]
    · have inside : Item.unrecognized found ∈ Place.items ⟨0, source.toList⟩ := by simp [split]
      cases holds.recognized _ inside

end Scan

end Reckoner
