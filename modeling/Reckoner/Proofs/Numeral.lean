import Reckoner.Scanner.Numeral

namespace Reckoner

/-- Digits and nothing else. There may be none. -/
structure Digits where
  chars : List Char
  isDigit : ∀ c ∈ chars, c.isDigit = true

/-- The end of a numeral from the marker on. Its digits may be missing. -/
structure ExponentText where
  marker : Char
  sign : Option Char
  digits : Digits
  isMarker : marker = 'e' ∨ marker = 'E'
  isSign : ∀ c ∈ sign, c = '+' ∨ c = '-'

/-- The text of a numeral in its parts: one digit or more, then a point with the digits behind it or
nothing, then an exponent or nothing. -/
structure NumeralText where
  whole : Digits
  fraction : Option Digits
  exponent : Option ExponentText
  begun : whole.chars ≠ []

namespace ExponentText

def chars (exponent : ExponentText) : List Char :=
  exponent.marker :: exponent.sign.toList ++ exponent.digits.chars

end ExponentText

namespace NumeralText

def fractionChars (text : NumeralText) : List Char :=
  text.fraction.elim [] fun digits => '.' :: digits.chars

def exponentChars (text : NumeralText) : List Char :=
  text.exponent.elim [] ExponentText.chars

def chars (text : NumeralText) : List Char :=
  text.whole.chars ++ (text.fractionChars ++ text.exponentChars)

def lexeme (text : NumeralText) : String :=
  String.ofList text.chars

@[simp] theorem toList_lexeme (text : NumeralText) : text.lexeme.toList = text.chars :=
  String.toList_ofList

end NumeralText

namespace Numeral

/-- What has been read when all the characters of a text belong to the numeral. -/
inductive Takes : Numeral → List Char → Numeral → Prop
  | nothing {numeral} : Takes numeral [] numeral
  | next {numeral next last c text} : numeral.extend? c = some next → Takes next text last →
      Takes numeral (c :: text) last

theorem Takes.append {first second third : Numeral} {before behind : List Char}
    (takes : Takes first before second) (more : Takes second behind third) :
    Takes first (before ++ behind) third := by
  induction takes with
  | nothing => exact more
  | next extended _ ih => exact .next extended (ih more)

/-- A numeral is munched up to the first character that does not belong to it. -/
theorem Takes.munch_append {numeral last : Numeral} {text : List Char}
    (takes : Takes numeral text last) (taken : List Char) {behind : List Char}
    (stops : ∀ c ∈ behind.head?, last.extend? c = none) :
    numeral.munch taken (text ++ behind) = (taken.reverse ++ text, behind) := by
  induction takes generalizing taken with
  | @nothing numeral =>
    rw [List.nil_append, List.append_nil]
    cases behind with
    | nil => rfl
    | cons c rest =>
      have refused := stops c rfl
      simp only [munch, refused]
  | @next numeral next last c text extended _ ih =>
    simp only [List.cons_append, munch, extended]
    rw [ih (c :: taken) stops, List.reverse_cons, List.append_assoc, List.singleton_append]

/-- A digit belongs to every part of a numeral and begins a new one only behind the marker. -/
theorem extend?_digit {c : Char} (digit : c.isDigit = true) (numeral : Numeral) :
    numeral.extend? c = some (if numeral = marker then exponent else numeral) := by
  cases numeral <;> simp [extend?, digit]

/-- A marker stands behind digits, and no other marker before it. -/
theorem extend?_marker {c : Char} (isMarker : c = 'e' ∨ c = 'E') (numeral : Numeral) :
    numeral.extend? c = if numeral = whole ∨ numeral = fraction then some marker else none := by
  rcases isMarker with rfl | rfl <;> cases numeral <;> rfl

theorem takes_digits (numeral : Numeral) (unmarked : numeral ≠ marker) (digits : Digits) :
    Takes numeral digits.chars numeral := by
  obtain ⟨chars, isDigit⟩ := digits
  induction chars with
  | nil => exact .nothing
  | cons c chars ih =>
    have first := extend?_digit (isDigit c (List.mem_cons_self ..)) numeral
    rw [if_neg unmarked] at first
    exact .next first (ih fun d inside => isDigit d (List.mem_cons_of_mem c inside))

theorem marker_extend?_sign {c : Char} (isSign : c = '+' ∨ c = '-') :
    marker.extend? c = some exponent := by
  rcases isSign with rfl | rfl <;> rfl

/-- The digits of an exponent are read alike behind the marker and behind the sign. -/
theorem takes_exponentDigits (sign : Option Char) (isSign : ∀ c ∈ sign, c = '+' ∨ c = '-')
    (digits : Digits) : ∃ last, Takes marker (sign.toList ++ digits.chars) last := by
  cases sign with
  | some c =>
    have extended := marker_extend?_sign (isSign c rfl)
    exact ⟨exponent, .next extended (takes_digits exponent (by decide) digits)⟩
  | none =>
    obtain ⟨chars, isDigit⟩ := digits
    cases chars with
    | nil => exact ⟨marker, .nothing⟩
    | cons c chars =>
      have extended : marker.extend? c = some exponent :=
        extend?_digit (isDigit c (List.mem_cons_self ..)) marker
      have rest : ∀ d ∈ chars, d.isDigit = true := fun d inside =>
        isDigit d (List.mem_cons_of_mem c inside)
      exact ⟨exponent, .next extended (takes_digits exponent (by decide) ⟨chars, rest⟩)⟩

end Numeral

namespace NumeralText

open Numeral

theorem exists_first (text : NumeralText) :
    ∃ first rest, text.chars = first :: rest ∧ first.isDigit = true := by
  obtain ⟨⟨chars, isDigit⟩, fraction, exponent, begun⟩ := text
  cases chars with
  | nil => exact absurd rfl begun
  | cons first rest => exact ⟨first, _, rfl, isDigit first (List.mem_cons_self ..)⟩

theorem takes_exponentChars {numeral : Numeral} (unmarked : numeral = .whole ∨ numeral = .fraction)
    (text : NumeralText) : ∃ last, Takes numeral text.exponentChars last := by
  unfold exponentChars
  cases text.exponent with
  | none => exact ⟨numeral, .nothing⟩
  | some exponent =>
    obtain ⟨last, takes⟩ := takes_exponentDigits exponent.sign exponent.isSign exponent.digits
    have marked := extend?_marker exponent.isMarker numeral
    rw [if_pos unmarked] at marked
    exact ⟨last, .next marked takes⟩

/-- All the characters of a numeral belong to it, however it is split into parts. -/
theorem takes_chars (text : NumeralText) : ∃ last, Takes .whole text.chars last := by
  have whole := takes_digits .whole (by decide) text.whole
  unfold chars fractionChars
  cases text.fraction with
  | none =>
    obtain ⟨last, exponent⟩ := text.takes_exponentChars (Or.inl rfl)
    exact ⟨last, whole.append exponent⟩
  | some digits =>
    obtain ⟨last, exponent⟩ := text.takes_exponentChars (Or.inr rfl)
    have fraction := takes_digits .fraction (by decide) digits
    exact ⟨last, whole.append (.next rfl (fraction.append exponent))⟩

end NumeralText

end Reckoner
