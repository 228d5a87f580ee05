import Reckoner.Proofs.Scanning

namespace Reckoner

/-- Digits with one more in front of them. -/
def Digits.cons (c : Char) (digit : c.isDigit = true) (digits : Digits) : Digits where
  chars := c :: digits.chars
  isDigit := by
    intro d inside
    rcases List.mem_cons.mp inside with rfl | later
    · exact digit
    · exact digits.isDigit d later

def Digits.none : Digits :=
  ⟨[], nofun⟩

namespace Numeral

variable {c : Char} {text : List Char} {last next : Numeral}

theorem whole_extend?_eq_some (extended : whole.extend? c = some next) :
    (c.isDigit = true ∧ next = whole) ∨ (c = '.' ∧ next = fraction) ∨
      ((c = 'e' ∨ c = 'E') ∧ next = marker) := by
  simp only [extend?, isMarker, Bool.or_eq_true, decide_eq_true_eq] at extended
  split at extended
  · exact Or.inl ⟨‹_›, (Option.some.inj extended).symm⟩
  split at extended
  · exact Or.inr (Or.inl ⟨‹_›, (Option.some.inj extended).symm⟩)
  split at extended
  · exact Or.inr (Or.inr ⟨‹_›, (Option.some.inj extended).symm⟩)
  · cases extended

theorem fraction_extend?_eq_some (extended : fraction.extend? c = some next) :
    (c.isDigit = true ∧ next = fraction) ∨ ((c = 'e' ∨ c = 'E') ∧ next = marker) := by
  simp only [extend?, isMarker, Bool.or_eq_true, decide_eq_true_eq] at extended
  split at extended
  · exact Or.inl ⟨‹_›, (Option.some.inj extended).symm⟩
  split at extended
  · exact Or.inr ⟨‹_›, (Option.some.inj extended).symm⟩
  · cases extended

theorem marker_extend?_eq_some (extended : marker.extend? c = some next) :
    (c.isDigit = true ∨ c = '+' ∨ c = '-') ∧ next = exponent := by
  simp only [extend?, isSign, Bool.or_eq_true, decide_eq_true_eq] at extended
  split at extended
  · exact ⟨‹_›, (Option.some.inj extended).symm⟩
  · cases extended

theorem exponent_extend?_eq_some (extended : exponent.extend? c = some next) :
    c.isDigit = true ∧ next = exponent := by
  simp only [extend?] at extended
  split at extended
  · exact ⟨‹_›, (Option.some.inj extended).symm⟩
  · cases extended

/-- A character that is no digit, point, marker or sign is part of no numeral. -/
theorem extend?_eq_none (noDigit : c.isDigit = false) (noPoint : c ≠ '.')
    (noMarker : c ≠ 'e' ∧ c ≠ 'E') (noSign : c ≠ '+' ∧ c ≠ '-') (numeral : Numeral) :
    numeral.extend? c = none := by
  cases numeral <;> simp [extend?, isMarker, isSign, noDigit, noPoint, noMarker, noSign]

/-- A blank is part of no numeral. -/
theorem extend?_blank (blank : Text.isBlank c = true) (numeral : Numeral) :
    numeral.extend? c = none := by
  have differs (d : Char) (inked : Text.isBlank d = false) : c ≠ d := by
    rintro rfl
    rw [blank] at inked
    cases inked
  have noDigit : c.isDigit = false := by
    refine Bool.eq_false_iff.mpr fun digit => ?_
    rw [Item.isBlank_eq_false_of_isDigit digit] at blank
    cases blank
  exact extend?_eq_none noDigit (differs '.' (by decide))
    ⟨differs 'e' (by decide), differs 'E' (by decide)⟩
    ⟨differs '+' (by decide), differs '-' (by decide)⟩ numeral

/-- The state a numeral is in is told by its text. -/
theorem Takes.unique {numeral first second : Numeral} (takes : Takes numeral text first)
    (other : Takes numeral text second) : first = second := by
  induction takes with
  | nothing =>
    cases other
    rfl
  | next extended _ ih =>
    cases other with
    | next extended' more =>
      rw [extended] at extended'
      cases extended'
      exact ih more

/-- What is munched belongs to the numeral, and what is left does not go on with it. -/
theorem exists_munch (numeral : Numeral) (taken text : List Char) :
    ∃ more behind last, text = more ++ behind ∧ Takes numeral more last ∧
      (∀ c ∈ behind.head?, last.extend? c = none) ∧
      numeral.munch taken text = (taken.reverse ++ more, behind) := by
  induction text generalizing numeral taken with
  | nil => exact ⟨[], [], numeral, rfl, .nothing, nofun, by simp [munch]⟩
  | cons c rest ih =>
    cases extended : numeral.extend? c with
    | none =>
      refine ⟨[], c :: rest, numeral, rfl, .nothing, ?_, by simp [munch, extended]⟩
      rintro _ ⟨⟩
      exact extended
    | some next =>
      obtain ⟨more, behind, last, rfl, takes, stops, munched⟩ := ih next (c :: taken)
      refine ⟨c :: more, behind, last, rfl, .next extended takes, stops, ?_⟩
      simp only [munch, extended, munched, List.reverse_cons, List.append_assoc,
        List.singleton_append]

section Parts

/-- Behind the digits of an exponent there are more digits and nothing else. -/
theorem Takes.exponent_parts (takes : Takes exponent text last) :
    ∃ digits : Digits, text = digits.chars := by
  generalize start : exponent = numeral at takes
  induction takes with
  | nothing => exact ⟨.none, rfl⟩
  | next extended _ ih =>
    subst start
    obtain ⟨digit, rfl⟩ := exponent_extend?_eq_some extended
    obtain ⟨digits, rfl⟩ := ih rfl
    exact ⟨digits.cons _ digit, rfl⟩

theorem Takes.marker_parts (takes : Takes marker text last) :
    ∃ (sign : Option Char) (digits : Digits), (∀ c ∈ sign, c = '+' ∨ c = '-') ∧
      text = sign.toList ++ digits.chars := by
  cases takes with
  | nothing => exact ⟨none, .none, nofun, rfl⟩
  | @next _ _ _ c _ extended takes =>
    obtain ⟨digit | sign, rfl⟩ := marker_extend?_eq_some extended
    · obtain ⟨digits, rfl⟩ := takes.exponent_parts
      exact ⟨none, digits.cons c digit, nofun, rfl⟩
    · obtain ⟨digits, rfl⟩ := takes.exponent_parts
      refine ⟨some c, digits, ?_, rfl⟩
      rintro _ ⟨⟩
      exact sign

/-- A marker begins an exponent, which may break off behind it. -/
theorem Takes.exists_exponent (isMarker : c = 'e' ∨ c = 'E') (takes : Takes marker text last) :
    ∃ exponent : ExponentText, c :: text = exponent.chars := by
  obtain ⟨sign, digits, isSign, rfl⟩ := takes.marker_parts
  exact ⟨⟨c, sign, digits, isMarker, isSign⟩, rfl⟩

theorem Takes.fraction_parts (takes : Takes fraction text last) :
    ∃ (digits : Digits) (exponent : Option ExponentText),
      text = digits.chars ++ exponent.elim [] ExponentText.chars := by
  generalize start : fraction = numeral at takes
  induction takes with
  | nothing => exact ⟨.none, none, rfl⟩
  | @next _ _ _ c _ extended takes ih =>
    subst start
    rcases fraction_extend?_eq_some extended with ⟨digit, rfl⟩ | ⟨isMarker, rfl⟩
    · obtain ⟨digits, exponent, rfl⟩ := ih rfl
      exact ⟨digits.cons c digit, exponent, rfl⟩
    · obtain ⟨exponent, chars⟩ := takes.exists_exponent isMarker
      exact ⟨.none, some exponent, chars⟩

theorem Takes.whole_parts (takes : Takes whole text last) :
    ∃ (digits : Digits) (fraction : Option Digits) (exponent : Option ExponentText),
      text = digits.chars ++ ((fraction.elim [] fun digits => '.' :: digits.chars) ++
        exponent.elim [] ExponentText.chars) := by
  generalize start : whole = numeral at takes
  induction takes with
  | nothing => exact ⟨.none, none, none, rfl⟩
  | @next _ _ _ c _ extended takes ih =>
    subst start
    rcases whole_extend?_eq_some extended with ⟨digit, rfl⟩ | ⟨rfl, rfl⟩ | ⟨isMarker, rfl⟩
    · obtain ⟨digits, fraction, exponent, rfl⟩ := ih rfl
      exact ⟨digits.cons c digit, fraction, exponent, rfl⟩
    · obtain ⟨digits, exponent, rfl⟩ := takes.fraction_parts
      exact ⟨.none, some digits, exponent, rfl⟩
    · obtain ⟨exponent, chars⟩ := takes.exists_exponent isMarker
      exact ⟨.none, none, some exponent, chars⟩

end Parts

/-- What belongs to a numeral behind its first digit makes a numeral with it. -/
theorem Takes.exists_numeralText {first : Char} (digit : first.isDigit = true)
    (takes : Takes whole text last) : ∃ numeral : NumeralText, numeral.chars = first :: text := by
  obtain ⟨digits, fraction, exponent, rfl⟩ := takes.whole_parts
  exact ⟨⟨digits.cons first digit, fraction, exponent, nofun⟩, rfl⟩

end Numeral

end Reckoner
