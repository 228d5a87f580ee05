import Reckoner.Proofs.Layout
import Reckoner.Proofs.Literal

namespace Reckoner

/-- A numeral is finished when the exponent that it has, if any, has digits. -/
def NumeralText.IsFinished (text : NumeralText) : Prop :=
  ∀ part ∈ text.exponent, part.digits.chars ≠ []

namespace Decimal

/-- An exponent without digits is not read, with or without a sign. -/
theorem exponent?_eq_none {part : ExponentText} (broken : part.digits.chars = []) :
    exponent? part.chars = none := by
  obtain ⟨marker, sign, ⟨chars, isDigit⟩, isMarker, isSign⟩ := part
  subst broken
  have marked : exponent? (marker :: (sign.toList ++ [])) = signedNatural? (sign.toList ++ []) :=
    if_pos isMarker
  refine marked.trans ?_
  cases sign with
  | none => rfl
  | some c => rcases isSign c rfl with rfl | rfl <;> rfl

theorem exponent?_isSome_iff (text : NumeralText) :
    (exponent? text.exponentChars).isSome = true ↔ text.IsFinished := by
  obtain ⟨whole, fraction, exponent, begun⟩ := text
  cases exponent with
  | none => exact iff_of_true rfl nofun
  | some part =>
    by_cases broken : part.digits.chars = []
    · refine iff_of_false ?_ fun finished => finished part rfl broken
      have unread : exponent? part.chars = none := exponent?_eq_none broken
      exact fun read => nomatch unread ▸ read
    · have read : exponent? part.chars = some part.value := exponent?_chars broken
      refine iff_of_true (read ▸ rfl) ?_
      rintro _ ⟨⟩
      exact broken

/-- A numeral is read if its exponent is. -/
theorem read?_chars (text : NumeralText) :
    read? text.chars = (exponent? text.exponentChars).map fun exponent =>
      ⟨valueOfDigits (text.whole.chars ++ text.fractionDigits),
        exponent - text.fractionDigits.length⟩ := by
  obtain ⟨whole, rest⟩ := span_digits text.whole (fractionChars_foreign text)
  have split := splitFraction_chars text
  unfold read? NumeralText.chars
  rw [whole, rest, split]
  simp only [text.begun, false_and, if_false]

end Decimal

/-- Of the numerals those are read as numbers that are finished. -/
theorem Binary64.read?_isSome_iff (text : NumeralText) :
    (read? text.lexeme).isSome = true ↔ text.IsFinished := by
  obtain ⟨first, rest, chars, digit⟩ := text.exists_first
  rw [← text.toList_lexeme] at chars
  rw [read?_eq_of_digit chars digit, text.toList_lexeme, Decimal.read?_chars,
    ← Decimal.exponent?_isSome_iff]
  simp only [Option.isSome_map]

namespace Numeral

variable {c : Char} {text : List Char} {last : Numeral}

theorem Takes.split {numeral : Numeral} {before behind : List Char}
    (takes : Takes numeral (before ++ behind) last) :
    ∃ middle, Takes numeral before middle ∧ Takes middle behind last := by
  induction before generalizing numeral with
  | nil => exact ⟨numeral, .nothing, takes⟩
  | cons c before ih =>
    cases takes with
    | next extended takes =>
      obtain ⟨middle, first, second⟩ := ih takes
      exact ⟨middle, .next extended first, second⟩

theorem Takes.eq_exponent (takes : Takes exponent text last) : last = exponent := by
  induction text with
  | nil =>
    cases takes
    rfl
  | cons c rest ih =>
    cases takes with
    | next extended takes =>
      obtain ⟨_, rfl⟩ := exponent_extend?_eq_some extended
      exact ih takes

/-- Once there is anything behind the marker, it is left behind. -/
theorem Takes.eq_exponent_of_marker (takes : Takes marker text last) (begun : text ≠ []) :
    last = exponent := by
  cases takes with
  | nothing => exact absurd rfl begun
  | next extended takes =>
    obtain ⟨_, rfl⟩ := marker_extend?_eq_some extended
    exact takes.eq_exponent

/-- Before its exponent a numeral has not come to a marker. -/
theorem Takes.ne_marker_of_fractionChars (numeral : NumeralText)
    (takes : Takes whole (numeral.whole.chars ++ numeral.fractionChars) last) : last ≠ marker := by
  have digits := takes_digits whole (by decide) numeral.whole
  cases part : numeral.fraction with
  | none =>
    have before : Takes whole (numeral.whole.chars ++ numeral.fractionChars) whole := by
      simpa [NumeralText.fractionChars, part] using digits
    rw [takes.unique before]
    nofun
  | some more =>
    have behind : Takes whole ('.' :: more.chars) fraction :=
      .next rfl (takes_digits fraction (by decide) more)
    have before : Takes whole (numeral.whole.chars ++ numeral.fractionChars) fraction := by
      simpa [NumeralText.fractionChars, part] using digits.append behind
    rw [takes.unique before]
    nofun

theorem eq_marker_of_extend? {numeral next : Numeral} (isMarker : c = 'e' ∨ c = 'E')
    (extended : numeral.extend? c = some next) : next = marker := by
  rw [extend?_marker isMarker] at extended
  split at extended
  · exact (Option.some.inj extended).symm
  · cases extended

/-- A finished numeral is not left at its marker, where a sign would go on with it. -/
theorem Takes.ne_marker {numeral : NumeralText} (finished : numeral.IsFinished)
    (takes : Takes whole numeral.chars last) : last ≠ marker := by
  rw [NumeralText.chars, ← List.append_assoc] at takes
  obtain ⟨middle, front, back⟩ := takes.split
  unfold NumeralText.exponentChars at back
  cases part : numeral.exponent with
  | none =>
    rw [part] at back
    cases back
    exact front.ne_marker_of_fractionChars
  | some exponent =>
    have digits := finished exponent part
    rw [part] at back
    cases back with
    | next extended back =>
      cases eq_marker_of_extend? exponent.isMarker extended
      rw [back.eq_exponent_of_marker (by simp [digits])]
      nofun

/-- Behind anything but its marker a numeral goes on with digits, a point or a marker. -/
theorem extend?_eq_none_of_ne_marker {numeral : Numeral} (left : numeral ≠ marker)
    (noDigit : c.isDigit = false) (noPoint : c ≠ '.') (noMarker : c ≠ 'e' ∧ c ≠ 'E') :
    numeral.extend? c = none := by
  cases numeral with
  | marker => exact absurd rfl left
  | _ => simp [extend?, isMarker, noDigit, noPoint, noMarker]

end Numeral

/-- A number that is read is over before a character that is no digit, no point and no marker, also
before a sign. -/
theorem Token.endsBefore_of_read {token : Token} (spelled : token.IsSpelled)
    (read : ∀ lexeme, token = .number lexeme → (Binary64.read? lexeme).isSome = true)
    {c : Char} (noDigit : c.isDigit = false) (noPoint : c ≠ '.') (noMarker : c ≠ 'e' ∧ c ≠ 'E')
    (rest : List Char) : token.EndsBefore (c :: rest) := by
  cases spelled with
  | number text =>
    have finished := (Binary64.read?_isSome_iff text).mp (read text.lexeme rfl)
    rintro last takes _ ⟨⟩
    rw [text.toList_lexeme] at takes
    exact Numeral.extend?_eq_none_of_ne_marker (takes.ne_marker finished) noDigit noPoint noMarker
  | operator op => exact trivial
  | opening => exact trivial
  | closing => exact trivial

end Reckoner
