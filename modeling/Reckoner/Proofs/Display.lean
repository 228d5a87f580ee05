import Reckoner.Proofs.Binary64.Shortest
import Reckoner.Proofs.Neatness

namespace Reckoner

open Binary64

/-- None of the literals that are rounded to the number has fewer significant digits, and of those
with as few none is nearer to it. Of two that are equally near it is the greater one. -/
structure Literal.IsShortest (literal : Literal) (x : Float) : Prop where
  rounded : IsRounded literal.value x
  fewest : ∀ other : Literal, IsRounded other.value x →
    ∀ count, Significant count other.value → Significant count literal.value
  closest : ∀ other : Literal, IsRounded other.value x →
    (∀ count, Significant count literal.value → Significant count other.value) →
    |literal.value - toRat x| ≤ |other.value - toRat x|
  upper : ∀ other : Literal, IsRounded other.value x →
    (∀ count, Significant count literal.value → Significant count other.value) →
    |other.value - toRat x| ≤ |literal.value - toRat x| → other.value ≤ literal.value

/-- The text that a number is shown as. A finite one is shown by its shortest literal without an
exponent and without zeros that could be left out, behind its sign, which zero has too. -/
inductive IsShownAs : Float → String → Prop
  | notANumber {x : Float} : x.isNaN = true → IsShownAs x "NaN"
  | infinite (negative : Bool) {magnitude : Float} : magnitude.isInf = true →
      magnitude.toBits.toNat < 2 ^ 63 →
      IsShownAs (signed negative magnitude) ((if negative then "-" else "") ++ "inf")
  | finite (negative : Bool) {magnitude : Float} {literal : Literal} : magnitude.isFinite = true →
      literal.IsNeat → literal.IsShortest magnitude →
      IsShownAs (signed negative magnitude) ((if negative then "-" else "") ++ literal.lexeme)

/-- Two literals that are shortest are so alike, and of the two neither is the greater one. -/
theorem Literal.IsShortest.value_eq {literal other : Literal} {x : Float}
    (shortest : literal.IsShortest x) (shortest' : other.IsShortest x) :
    literal.value = other.value := by
  have few := shortest'.fewest literal shortest.rounded
  have few' := shortest.fewest other shortest'.rounded
  have near := shortest.closest other shortest'.rounded few
  have near' := shortest'.closest literal shortest.rounded few'
  exact le_antisymm (shortest'.upper literal shortest.rounded few' near)
    (shortest.upper other shortest'.rounded few near')

namespace Binary64

theorem ofMagnitude_injective {word other : Nat} (within : word ≤ infinity)
    (otherWithin : other ≤ infinity) (same : ofMagnitude false word = ofMagnitude false other) :
    word = other := by
  have bits : (ofMagnitude false word).toBits.toNat = (ofMagnitude false other).toBits.toNat := by
    rw [same]
  rw [toNat_toBits_ofMagnitude false within, toNat_toBits_ofMagnitude false otherWithin] at bits
  exact Nat.add_left_cancel bits

theorem ofMagnitude_eq_signed (negative : Bool) {word : Nat} (within : word ≤ infinity) :
    ofMagnitude negative word = signed negative (ofMagnitude false word) := by
  cases negative with
  | false => rfl
  | true => exact (neg_ofMagnitude false within).symm

/-- A literal is read as the number that its value is rounded to. -/
theorem read?_literal_eq_some_iff (literal : Literal) (x : Float) :
    read? literal.lexeme = some x ↔ IsRounded literal.value x := by
  have rounded := isRounded_of_roundsTo literal.decimal.toRat_nonneg
    (roundsTo_ofDecimal literal.decimal)
  rw [literal.toRat_decimal] at rounded
  rw [read?_literal, Option.some.injEq]
  constructor
  · rintro rfl
    exact rounded
  · exact rounded.unique

theorem isRounded_literal_iff (literal : Literal) {word : Nat} (finite : word < infinity) :
    IsRounded literal.value (ofMagnitude false word) ↔ ReadsBack word literal.value := by
  have rounds := roundsTo_ofDecimal literal.decimal
  rw [literal.toRat_decimal] at rounds
  rw [← read?_literal_eq_some_iff, read?_literal]
  constructor
  · intro same
    have word_eq := ofMagnitude_injective rounds.le_infinity finite.le (Option.some.inj same)
    rw [word_eq] at rounds
    exact readsBack_of_roundsTo finite rounds
  · intro back
    rw [rounds.unique (back.roundsTo finite)]

/-- The digits that are printed of the number of a word. -/
def printed (word : Nat) : Literal :=
  positionalText (places word) (shortest word)

theorem isNeat_printed (word : Nat) : (printed word).IsNeat :=
  isNeat_positionalText (places word) (shortest word)

theorem isShortest_printed {word : Nat} (finite : word < infinity) :
    (printed word).IsShortest (ofMagnitude false word) := by
  have value : (printed word).value = shortest word / unit word :=
    value_positionalText (places word) (shortest word)
  have exact : toRat (ofMagnitude false word) = multiple word / 2 ^ depth :=
    toRat_ofMagnitude false finite
  obtain ⟨back, fewest, closest, upper⟩ := isShortest_shortest finite
  rw [← value] at back fewest closest upper
  have otherBack (other : Literal) (rounded : IsRounded other.value (ofMagnitude false word)) :
      ReadsBack word other.value := (isRounded_literal_iff other finite).mp rounded
  constructor
  · exact (isRounded_literal_iff _ finite).mpr back
  · exact fun other rounded count => fewest other.value count (otherBack other rounded)
  · intro other rounded
    rw [exact]
    exact closest other.value (otherBack other rounded)
  · intro other rounded
    rw [exact]
    exact upper other.value (otherBack other rounded)

/-- The sign, and the text of the magnitude behind it. -/
theorem render_eq {x : Float} {negative : Bool} {word : Nat} (within : word < 2 ^ 63)
    (value : x.toBits.toNat = (if negative then 2 ^ 63 else 0) + word) :
    render x = if infinity < word then "NaN"
      else (if negative then "-" else "") ++
        if word = infinity then "inf" else (printed word).lexeme := by
  have bit : signBit = 2 ^ 63 := by decide
  have fields : x.toBits.toNat % signBit = word ∧ (signBit ≤ x.toBits.toNat ↔ negative = true) := by
    rw [value, bit]
    cases negative with
    | false =>
      rw [if_neg Bool.false_ne_true]
      exact ⟨by omega, iff_of_false (by omega) Bool.false_ne_true⟩
    | true =>
      rw [if_pos rfl]
      exact ⟨by omega, iff_of_true (by omega) rfl⟩
  obtain ⟨magnitude, sign⟩ := fields
  unfold render
  dsimp only
  rw [magnitude, positional_eq_lexeme]
  simp only [sign]
  rfl

theorem render_ofMagnitude (negative : Bool) {word : Nat} (within : word ≤ infinity) :
    render (ofMagnitude negative word) = (if negative then "-" else "") ++
      if word = infinity then "inf" else (printed word).lexeme := by
  rw [render_eq (lt_of_le_infinity within) (toNat_toBits_ofMagnitude negative within),
    if_neg (Nat.not_lt.mpr within)]

end Binary64

/-- Every number is shown as one text, and that is the one that is written. -/
theorem isShownAs_iff (x : Float) (text : String) : IsShownAs x text ↔ text = render x := by
  constructor
  · intro shown
    cases shown with
    | notANumber nan =>
      obtain ⟨negative, word, within, fields, value⟩ := exists_bits x
      rw [render_eq within value, if_pos ((isNaN_iff within fields).mp nan)]
    | infinite negative infinite positive =>
      obtain ⟨word, within, fields⟩ := exists_bits_of_positive positive
      have top := (isInf_iff within fields).mp infinite
      subst top
      rw [eq_ofMagnitude le_rfl fields, ← ofMagnitude_eq_signed negative le_rfl,
        render_ofMagnitude negative le_rfl, if_pos rfl]
    | finite negative finite neat shortest =>
      obtain ⟨word, within, fields⟩ := exists_bits_of_positive shortest.rounded.positive
      have below := (isFinite_iff within fields).mp finite
      have magnitude := eq_ofMagnitude below.le fields
      subst magnitude
      have value := shortest.value_eq (isShortest_printed below)
      rw [← ofMagnitude_eq_signed negative below.le, render_ofMagnitude negative below.le,
        if_neg below.ne, neat.lexeme_eq (isNeat_printed word) value]
  · rintro rfl
    obtain ⟨negative, word, within, fields, value⟩ := exists_bits x
    rcases Nat.lt_trichotomy word infinity with finite | rfl | past
    · rw [eq_ofMagnitude finite.le fields, render_ofMagnitude negative finite.le,
        if_neg finite.ne, ofMagnitude_eq_signed negative finite.le]
      exact .finite negative (isFinite_ofMagnitude false finite) (isNeat_printed word)
        (isShortest_printed finite)
    · rw [eq_ofMagnitude le_rfl fields, render_ofMagnitude negative le_rfl, if_pos rfl,
        ofMagnitude_eq_signed negative le_rfl]
      refine .infinite negative (isInf_infinity false) ?_
      rw [toNat_toBits_ofMagnitude false le_rfl]
      decide
    · rw [render_eq within value, if_pos past]
      exact .notANumber ((isNaN_iff within fields).mpr past)

end Reckoner
