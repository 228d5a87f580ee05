import Reckoner.Binary64
import Reckoner.Proofs.Binary64.Value
import Reckoner.Proofs.Source

namespace Reckoner

namespace Digits

def value (digits : Digits) : Nat :=
  Nat.ofDigitChars 10 digits.chars 0

end Digits

def ExponentText.value (exponent : ExponentText) : Int :=
  if exponent.sign = some '-' then -exponent.digits.value else exponent.digits.value

namespace NumeralText

def fractionValue (text : NumeralText) : ℚ :=
  text.fraction.elim 0 fun digits => digits.value / 10 ^ digits.chars.length

def exponentValue (text : NumeralText) : Int :=
  text.exponent.elim 0 ExponentText.value

/-- The rational number that a numeral denotes. -/
def value (text : NumeralText) : ℚ :=
  (text.whole.value + text.fractionValue) * 10 ^ text.exponentValue

def fractionDigits (text : NumeralText) : List Char :=
  text.fraction.elim [] Digits.chars

/-- A numeral without its point. -/
def decimal (text : NumeralText) : Decimal :=
  ⟨Decimal.valueOfDigits (text.whole.chars ++ text.fractionDigits),
    text.exponentValue - text.fractionDigits.length⟩

end NumeralText

/-- A numeral that does not break off within its exponent. -/
structure Literal extends NumeralText where
  complete : ∀ part ∈ exponent, part.digits.chars ≠ []

namespace Decimal

theorem valueOfDigits_eq (digits : List Char) :
    valueOfDigits digits = Nat.ofDigitChars 10 digits 0 :=
  Nat.ofDigitChars_eq_foldl.symm

theorem valueOfDigits_append (before behind : List Char) :
    valueOfDigits (before ++ behind) =
      10 ^ behind.length * valueOfDigits before + valueOfDigits behind := by
  rw [valueOfDigits_eq, valueOfDigits_eq, valueOfDigits_eq, Nat.ofDigitChars_append,
    Nat.ofDigitChars_eq_ofDigitChars_zero]

theorem natural?_digits {digits : Digits} (begun : digits.chars ≠ []) :
    natural? digits.chars = some digits.value := by
  rw [natural?, if_pos ⟨begun, List.all_eq_true.mpr digits.isDigit⟩, valueOfDigits_eq]
  rfl

theorem signedNatural?_digits {digits : Digits} (begun : digits.chars ≠ []) :
    signedNatural? digits.chars = some (digits.value : Int) := by
  have read := natural?_digits begun
  have isDigit := digits.isDigit
  unfold signedNatural?
  split
  · rename_i chars
    rw [chars] at isDigit
    cases isDigit '-' (List.mem_cons_self ..)
  · rename_i chars
    rw [chars] at isDigit
    cases isDigit '+' (List.mem_cons_self ..)
  · rw [read]
    rfl

theorem exponent?_chars {part : ExponentText} (begun : part.digits.chars ≠ []) :
    exponent? part.chars = some part.value := by
  obtain ⟨marker, sign, digits, isMarker, isSign⟩ := part
  have marked : exponent? (marker :: (sign.toList ++ digits.chars)) =
    signedNatural? (sign.toList ++ digits.chars) := if_pos isMarker
  refine marked.trans ?_
  cases sign with
  | none => exact signedNatural?_digits begun
  | some c =>
    have read := natural?_digits begun
    rcases isSign c rfl with rfl | rfl
    · have plus : signedNatural? ('+' :: digits.chars) =
          (natural? digits.chars).map fun n => (n : Int) := rfl
      exact plus.trans (by rw [read]; rfl)
    · have minus : signedNatural? ('-' :: digits.chars) =
          (natural? digits.chars).map fun n => -(n : Int) := rfl
      exact minus.trans (by rw [read]; rfl)

theorem exponent?_exponentChars (literal : Literal) :
    exponent? literal.exponentChars = some literal.exponentValue := by
  obtain ⟨⟨_, _, exponent, _⟩, complete⟩ := literal
  cases exponent with
  | none => rfl
  | some part => exact exponent?_chars (complete part rfl)

/-- Behind the digits of a numeral stands no other digit. -/
theorem span_digits (digits : Digits) {rest : List Char}
    (foreign : ∀ c ∈ rest.head?, c.isDigit = false) :
    (digits.chars ++ rest).takeWhile Char.isDigit = digits.chars ∧
      (digits.chars ++ rest).dropWhile Char.isDigit = rest := by
  rw [List.takeWhile_append_of_pos digits.isDigit, List.dropWhile_append_of_pos digits.isDigit]
  cases rest with
  | nil => exact ⟨List.append_nil _, rfl⟩
  | cons c rest =>
    have stops : ¬c.isDigit = true := Bool.eq_false_iff.mp (foreign c rfl)
    rw [List.takeWhile_cons_of_neg stops, List.dropWhile_cons_of_neg stops, List.append_nil]
    exact ⟨rfl, rfl⟩

theorem exponentChars_foreign (text : NumeralText) :
    ∀ c ∈ text.exponentChars.head?, c.isDigit = false := by
  unfold NumeralText.exponentChars
  cases text.exponent with
  | none => exact fun _ inside => nomatch inside
  | some part =>
    rintro _ ⟨⟩
    rcases part.isMarker with marker | marker <;> rw [marker] <;> rfl

theorem splitFraction_chars (text : NumeralText) :
    splitFraction (text.fractionChars ++ text.exponentChars) =
      (text.fractionDigits, text.exponentChars) := by
  have foreign := exponentChars_foreign text
  unfold NumeralText.fractionChars NumeralText.fractionDigits
  cases text.fraction with
  | some digits =>
    obtain ⟨fraction, rest⟩ := span_digits digits foreign
    exact Prod.ext fraction rest
  | none =>
    unfold NumeralText.exponentChars
    cases text.exponent with
    | none => rfl
    | some part =>
      simp only [Option.elim, ExponentText.chars, List.nil_append, List.cons_append]
      rcases part.isMarker with marker | marker <;> rw [marker] <;> rfl

theorem fractionChars_foreign (text : NumeralText) :
    ∀ c ∈ (text.fractionChars ++ text.exponentChars).head?, c.isDigit = false := by
  have foreign := exponentChars_foreign text
  unfold NumeralText.fractionChars
  cases text.fraction with
  | none => exact foreign
  | some digits =>
    rintro _ ⟨⟩
    rfl

theorem read?_literal (literal : Literal) : read? literal.chars = some literal.decimal := by
  obtain ⟨whole, rest⟩ := span_digits literal.whole (fractionChars_foreign literal.toNumeralText)
  have split := splitFraction_chars literal.toNumeralText
  have exponent := exponent?_exponentChars literal
  unfold read? NumeralText.chars
  rw [whole, rest, split]
  simp only [literal.begun, false_and, if_false, exponent, Option.map_some]
  rfl

end Decimal

theorem NumeralText.fractionValue_eq (text : NumeralText) :
    text.fractionValue =
      (Nat.ofDigitChars 10 text.fractionDigits 0 : ℚ) / 10 ^ text.fractionDigits.length := by
  unfold fractionValue fractionDigits
  cases text.fraction with
  | none => exact (zero_div _).symm
  | some digits => rfl

/-- Moving the point out of a numeral does not change what it denotes. -/
theorem NumeralText.toRat_decimal (text : NumeralText) : text.decimal.toRat = text.value := by
  have whole : text.whole.value = Decimal.valueOfDigits text.whole.chars :=
    (Decimal.valueOfDigits_eq _).symm
  unfold decimal Decimal.toRat value
  rw [Decimal.valueOfDigits_append, text.fractionValue_eq, ← Decimal.valueOfDigits_eq, whole,
    zpow_sub₀ (by norm_num), zpow_natCast]
  push_cast
  field_simp

namespace Binary64

theorem toLower_eq_of_isDigit {c : Char} (digit : c.isDigit = true) : c.toLower = c := by
  have bounds : 48 ≤ c.toNat ∧ c.toNat ≤ 57 := Char.isDigit_iff_toNat.mp digit
  refine dif_neg fun upper => ?_
  have letter : 65 ≤ c.toNat := upper.1
  omega

/-- A text that begins with a digit has no sign and is no name. -/
theorem readMagnitude?_eq_of_digit {first : Char} (rest : List Char) (digit : first.isDigit = true) :
    readMagnitude? (first :: rest) = (Decimal.read? (first :: rest)).map ofDecimal := by
  have unnamed : namedWords.find? (·.1.toList = (first :: rest).map Char.toLower) = none := by
    refine List.find?_eq_none.mpr fun named inside same => ?_
    rw [decide_eq_true_eq, List.map_cons, toLower_eq_of_isDigit digit] at same
    simp only [namedWords, List.mem_cons, List.not_mem_nil, or_false] at inside
    rcases inside with rfl | rfl | rfl <;> cases (List.cons.inj same).1 <;> cases digit
  simp only [readMagnitude?, unnamed]

theorem read?_eq_of_digit {text : String} {first : Char} {rest : List Char}
    (chars : text.toList = first :: rest) (digit : first.isDigit = true) :
    read? text = (Decimal.read? text.toList).map
      fun decimal => ofMagnitude false (ofDecimal decimal) := by
  have magnitude := readMagnitude?_eq_of_digit rest digit
  unfold read?
  split
  · rename_i signed
    rw [chars] at signed
    cases signed
    cases digit
  · rename_i signed
    rw [chars] at signed
    cases signed
    cases digit
  · rw [chars, magnitude, Option.map_map]
    rfl

theorem read?_literal (literal : Literal) :
    read? literal.lexeme = some (ofMagnitude false (ofDecimal literal.decimal)) := by
  obtain ⟨first, rest, chars, digit⟩ := literal.exists_first
  rw [← literal.toList_lexeme] at chars
  rw [read?_eq_of_digit chars digit, literal.toList_lexeme, Decimal.read?_literal]
  rfl

end Binary64

/-- A literal is one token with or without a minus sign in front of it, and its value is the number
nearest to what it denotes. The sign makes that negative, even where it is zero. -/
theorem evaluate_literal_isRounded (literal : Literal) (lenient : Bool) :
    scan lenient literal.lexeme = .ok [.number literal.lexeme] ∧
    scan lenient ("-" ++ literal.lexeme) = .ok [.operator "-", .number literal.lexeme] ∧
    ∃ x : Float, (∀ y, Binary64.IsRounded literal.value y ↔ y = x) ∧
      (evaluate lenient literal.lexeme).result = .ok x ∧
      (evaluate lenient ("-" ++ literal.lexeme)).result = .ok (-x) ∧
      (-x).toBits.toNat = 2 ^ 63 + x.toBits.toNat := by
  have read := Binary64.read?_literal literal
  have rounds := Binary64.roundsTo_ofDecimal literal.decimal
  have within := rounds.le_infinity
  have plain : literal.lexeme.toList = signChars false ++ literal.chars := literal.toList_lexeme
  have negated : ("-" ++ literal.lexeme).toList = signChars true ++ literal.chars := by
    rw [← literal.toList_lexeme]
    exact toList_signed true literal.lexeme
  refine ⟨scan_numeral false lenient _ plain, scan_numeral true lenient _ negated,
    Binary64.ofMagnitude false (Binary64.ofDecimal literal.decimal), ?_,
    evaluate_numeral false _ read plain, evaluate_numeral true _ read negated, ?_⟩
  · have rounded := Binary64.isRounded_of_roundsTo literal.decimal.toRat_nonneg rounds
    rw [literal.toRat_decimal] at rounded
    refine fun y => ⟨fun again => again.unique rounded, ?_⟩
    rintro rfl
    exact rounded
  · rw [Binary64.neg_ofMagnitude false within, Bool.not_false,
      Binary64.toNat_toBits_ofMagnitude true within,
      Binary64.toNat_toBits_ofMagnitude false within, if_pos rfl, if_neg Bool.false_ne_true,
      Nat.zero_add]

end Reckoner
