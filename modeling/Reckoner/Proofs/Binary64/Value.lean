import Reckoner.Proofs.Binary64.Bits
import Reckoner.Proofs.Binary64.Rounding

namespace Reckoner.Binary64

/-- The rational number that a finite number is: its significand times a power of two, with its
sign. -/
def toRat (x : Float) : ℚ :=
  match x.toModel.unpack with
  | .finite sign significand exponent _ => sign.apply significand * 2 ^ exponent
  | _ => 0

/-- No finite number is nearer to `q`. Where a number of another value is as near, the last bit of the
significand is zero. -/
structure IsNearest (q : ℚ) (x : Float) : Prop where
  finite : x.isFinite = true
  closest : ∀ y : Float, y.isFinite = true → |q - toRat x| ≤ |q - toRat y|
  even : ∀ y : Float, y.isFinite = true → |q - toRat x| = |q - toRat y| →
    toRat y = toRat x ∨ x.toBits.toNat % 2 = 0

/-- Half way from the largest finite number to the next power of two. -/
def overflow : ℚ :=
  2 ^ 1024 - 2 ^ 970

/-- Rounding to nearest of a number that is not negative. The sign bit of the result is clear. -/
structure IsRounded (q : ℚ) (x : Float) : Prop where
  positive : x.toBits.toNat < 2 ^ 63
  nearest : q < overflow → IsNearest q x
  infinite : overflow ≤ q → x.isInf = true

/-- A word's multiple with a sign. -/
def signedMultiple (negative : Bool) (word : Nat) : ℚ :=
  if negative then -multiple word else multiple word

theorem toRat_ofMagnitude (negative : Bool) {word : Nat} (finite : word < infinity) :
    toRat (ofMagnitude negative word) = signedMultiple negative word / 2 ^ depth := by
  unfold toRat
  rw [toModel_ofMagnitude negative finite.le, unpack_pack negative finite.le]
  unfold unpacked signedMultiple
  rw [if_neg finite.ne]
  by_cases zero : word = 0
  · subst zero
    have none : multiple 0 = 0 := by decide
    rw [dif_pos rfl, none]
    cases negative <;> simp
  · have power : (2 : ℚ) ^ ((scale word : Int) - depth) = 2 ^ scale word / 2 ^ depth := by
      rw [zpow_sub₀ (by norm_num), zpow_natCast, zpow_natCast]
    have whole : (multiple word : ℚ) = significand word * 2 ^ scale word := by
      rw [multiple, Nat.shiftLeft_eq, Nat.cast_mul, Nat.cast_pow, Nat.cast_two]
    rw [dif_neg zero, whole]
    dsimp only
    rw [power]
    cases negative
    · have sign : (signOf false).apply (significand word) = significand word := rfl
      rw [sign, if_neg (by decide), Int.cast_natCast, mul_div_assoc]
    · have sign : (signOf true).apply (significand word) = -(significand word : Int) := rfl
      rw [sign, if_pos rfl, Int.cast_neg, Int.cast_natCast, ← mul_div_assoc, neg_mul]

/-- The word before the infinity is that of the largest finite number. -/
theorem multiple_largest :
    (multiple (infinity - 1) : ℚ) + multiple infinity = 2 * (overflow * 2 ^ depth) := by
  have next : multiple infinity = multiple (infinity - 1) + 2 ^ (971 + depth) := by
    have step := multiple_succ (infinity - 1)
    have scale : scale (infinity - 1) = 971 + depth := by decide
    have succ : infinity - 1 + 1 = infinity := by decide
    rwa [scale, succ] at step
  have cast : (multiple infinity : ℚ) = multiple (infinity - 1) + 2 * (2 ^ 970 * 2 ^ depth) := by
    rw [next, Nat.cast_add, Nat.cast_pow, Nat.cast_two, pow_add, pow_succ' 2 970, mul_assoc]
  have top : (multiple infinity : ℚ) = 2 ^ 1024 * 2 ^ depth := by
    rw [multiple_infinity, Nat.cast_mul, Nat.cast_pow, Nat.cast_pow, Nat.cast_two]
  have spread : overflow * 2 ^ depth = 2 ^ 1024 * 2 ^ depth - 2 ^ 970 * 2 ^ depth :=
    sub_mul _ _ _
  rw [spread, ← top]
  generalize (2 : ℚ) ^ 970 * 2 ^ depth = half at cast ⊢
  linarith

/-- The words that are nearest are those of finite numbers up to the threshold, and not from there
on. -/
theorem NearestMultiple.lt_infinity_iff {q : ℚ} {word : Nat}
    (nearest : NearestMultiple (q * 2 ^ depth) word) : word < infinity ↔ q < overflow := by
  have middle := multiple_largest
  have unit : (0 : ℚ) < 2 ^ depth := by positivity
  obtain ⟨⟨upper, tie⟩, lower⟩ := nearestMultiple_iff.mp nearest
  rw [← mul_lt_mul_iff_left₀ unit]
  generalize overflow * 2 ^ depth = threshold at middle ⊢
  generalize q * 2 ^ depth = scaled at upper tie lower ⊢
  constructor
  · intro finite
    have last := multiple_cast_le (Nat.le_sub_one_of_lt finite)
    have next := multiple_cast_le (Nat.succ_le_of_lt finite)
    by_contra large
    have same : word = infinity - 1 := multiple_cast_injective (by linarith)
    have even := tie (by linarith)
    rw [same] at even
    exact absurd even (by decide)
  · intro small
    by_contra past
    have largest : infinity - 1 + 1 ≤ word := Nat.le_of_not_lt past
    obtain ⟨previous, rfl⟩ := Nat.exists_eq_succ_of_ne_zero (Nat.ne_zero_of_lt largest)
    have reached := (lower previous rfl).1
    have below := multiple_cast_le (Nat.le_of_succ_le_succ largest)
    have here := multiple_cast_le (Nat.le_of_not_lt past)
    linarith

theorem distance_ofMagnitude (q : ℚ) (negative : Bool) {word : Nat} (finite : word < infinity) :
    |q - toRat (ofMagnitude negative word)| * 2 ^ depth =
      |q * 2 ^ depth - signedMultiple negative word| := by
  have unit : (0 : ℚ) < 2 ^ depth := by positivity
  rw [toRat_ofMagnitude negative finite]
  calc |q - signedMultiple negative word / 2 ^ depth| * 2 ^ depth
      = |q - signedMultiple negative word / 2 ^ depth| * |2 ^ depth| := by rw [abs_of_pos unit]
    _ = |q * 2 ^ depth - signedMultiple negative word| := by
      rw [← abs_mul, sub_mul, div_mul_cancel₀ _ unit.ne']

/-- Numbers below zero are no nearer to one above it than those with the opposite sign. -/
theorem NearestMultiple.signed {q : ℚ} {word : Nat} (nearest : NearestMultiple q word)
    (nonneg : 0 ≤ q) (negative : Bool) (other : Nat) :
    |q - multiple word| ≤ |q - signedMultiple negative other| ∧
      (|q - multiple word| = |q - signedMultiple negative other| →
        signedMultiple negative other = multiple word ∨ word % 2 = 0) := by
  obtain ⟨closest, tie⟩ := nearest other
  cases negative with
  | false => exact ⟨closest, fun equal => (tie equal).imp_left (congrArg (fun n => (multiple n : ℚ)))⟩
  | true =>
    have there : (0 : ℚ) ≤ multiple other := Nat.cast_nonneg _
    have farther : |q - multiple other| ≤ q + multiple other :=
      abs_le.mpr ⟨by linarith, by linarith⟩
    have across : |q - signedMultiple true other| = q + multiple other := by
      rw [signedMultiple, if_pos rfl, sub_neg_eq_add]
      exact abs_of_nonneg (by linarith)
    rw [across]
    refine ⟨closest.trans farther, fun equal => ?_⟩
    rcases tie (le_antisymm closest (by linarith)) with rfl | even
    · have zero := (nearest 0).1
      have none : multiple 0 = 0 := by decide
      rw [none, Nat.cast_zero, sub_zero, abs_of_nonneg nonneg] at zero
      have vanishes : (multiple other : ℚ) = 0 := by linarith
      left
      rw [signedMultiple, if_pos rfl, vanishes, neg_zero]
    · exact Or.inr even

theorem isNearest_of_nearestMultiple {q : ℚ} {word : Nat} (nonneg : 0 ≤ q)
    (nearest : NearestMultiple (q * 2 ^ depth) word) (finite : word < infinity) :
    IsNearest q (ofMagnitude false word) := by
  have unit : (0 : ℚ) < 2 ^ depth := by positivity
  have here : |q - toRat (ofMagnitude false word)| * 2 ^ depth = |q * 2 ^ depth - multiple word| :=
    distance_ofMagnitude q false finite
  have signed := nearest.signed (mul_nonneg nonneg unit.le)
  refine ⟨isFinite_ofMagnitude false finite, fun y yFinite => ?_, fun y yFinite tie => ?_⟩
  · obtain ⟨negative, other, below, rfl⟩ := exists_ofMagnitude yFinite
    refine le_of_mul_le_mul_right ?_ unit
    rw [here, distance_ofMagnitude q negative below]
    exact (signed negative other).1
  · obtain ⟨negative, other, below, rfl⟩ := exists_ofMagnitude yFinite
    have equal := congrArg (· * (2 : ℚ) ^ depth) tie
    rw [here, distance_ofMagnitude q negative below] at equal
    rw [toRat_ofMagnitude negative below, toRat_ofMagnitude false finite,
      toNat_toBits_ofMagnitude false finite.le, if_neg (by decide), Nat.zero_add]
    exact ((signed negative other).2 equal).imp_left (congrArg (· / (2 : ℚ) ^ depth))

/-- The word that a number is rounded to is its nearest number, or the infinity past the threshold. -/
theorem isRounded_of_roundsTo {q : ℚ} {word : Nat} (nonneg : 0 ≤ q)
    (rounds : RoundsTo (q * 2 ^ depth) word) : IsRounded q (ofMagnitude false word) := by
  obtain ⟨unbounded, nearest, rfl⟩ := rounds
  have within := Nat.min_le_left infinity unbounded
  refine ⟨?_, fun small => ?_, fun large => ?_⟩
  · rw [toNat_toBits_ofMagnitude false within, if_neg (by decide), Nat.zero_add]
    exact lt_of_le_infinity within
  · have finite := nearest.lt_infinity_iff.mpr small
    rw [Nat.min_eq_right finite.le]
    exact isNearest_of_nearestMultiple nonneg nearest finite
  · have past := mt nearest.lt_infinity_iff.mp (not_lt.mpr large)
    rw [Nat.min_eq_left (Nat.le_of_not_lt past)]
    exact isInf_infinity false

/-- Of two finite numbers, the comparison of their words with what is rounded. -/
theorem IsNearest.compare {q : ℚ} {word other : Nat} (nearest : IsNearest q (ofMagnitude false word))
    (finite : word < infinity) (otherFinite : other < infinity) :
    |q * 2 ^ depth - multiple word| ≤ |q * 2 ^ depth - multiple other| ∧
      (|q * 2 ^ depth - multiple word| = |q * 2 ^ depth - multiple other| →
        other = word ∨ word % 2 = 0) := by
  have unit : (0 : ℚ) < 2 ^ depth := by positivity
  have here : |q - toRat (ofMagnitude false word)| * 2 ^ depth = |q * 2 ^ depth - multiple word| :=
    distance_ofMagnitude q false finite
  have there : |q - toRat (ofMagnitude false other)| * 2 ^ depth = |q * 2 ^ depth - multiple other| :=
    distance_ofMagnitude q false otherFinite
  rw [← here, ← there]
  refine ⟨mul_le_mul_of_nonneg_right (nearest.closest _ (isFinite_ofMagnitude false otherFinite))
    unit.le, fun tie => ?_⟩
  have equal := mul_right_cancel₀ unit.ne' tie
  rcases nearest.even _ (isFinite_ofMagnitude false otherFinite) equal with same | even
  · left
    rw [toRat_ofMagnitude false otherFinite, toRat_ofMagnitude false finite] at same
    exact multiple_cast_injective ((div_left_inj' unit.ne').mp same)
  · right
    rwa [toNat_toBits_ofMagnitude false finite.le, if_neg (by decide), Nat.zero_add] at even

theorem IsNearest.not_below {q : ℚ} {word other : Nat} (nearest : IsNearest q (ofMagnitude false word))
    (further : IsNearest q (ofMagnitude false other)) (otherFinite : other < infinity) :
    ¬word < other := by
  intro below
  have finite := below.trans otherFinite
  obtain ⟨previous, rfl⟩ := Nat.exists_eq_succ_of_ne_zero (Nat.ne_zero_of_lt below)
  obtain ⟨closest, tie⟩ := nearest.compare finite ((Nat.succ_le_of_lt below).trans_lt otherFinite)
  obtain ⟨closestToo, tieToo⟩ := further.compare otherFinite (Nat.lt_of_succ_lt otherFinite)
  exact (halfAbove_of_nearer closest tie).not_halfBelow (Nat.le_of_lt_succ below)
    (halfBelow_of_nearer closestToo tieToo)

theorem IsRounded.exists_word {q : ℚ} {x : Float} (rounded : IsRounded q x) :
    ∃ word, x = ofMagnitude false word ∧ (q < overflow → word < infinity) ∧
      (overflow ≤ q → word = infinity) := by
  obtain ⟨word, within, fields⟩ := exists_bits_of_positive rounded.positive
  have finite (small : q < overflow) : word < infinity :=
    (isFinite_iff within fields).mp (rounded.nearest small).finite
  have infinite (large : overflow ≤ q) : word = infinity :=
    (isInf_iff within fields).mp (rounded.infinite large)
  have number : word ≤ infinity := (lt_or_ge q overflow).elim (fun small => (finite small).le)
    fun large => (infinite large).le
  exact ⟨word, eq_ofMagnitude number fields, finite, infinite⟩

/-- A number is rounded to one result only. -/
theorem IsRounded.unique {q : ℚ} {x y : Float} (rounded : IsRounded q x) (again : IsRounded q y) :
    x = y := by
  obtain ⟨word, rfl, finite, infinite⟩ := rounded.exists_word
  obtain ⟨other, rfl, otherFinite, otherInfinite⟩ := again.exists_word
  rcases lt_or_ge q overflow with small | large
  · have nearest := rounded.nearest small
    have further := again.nearest small
    have same : word = other :=
      Nat.le_antisymm (Nat.le_of_not_lt (further.not_below nearest (finite small)))
        (Nat.le_of_not_lt (nearest.not_below further (otherFinite small)))
    rw [same]
  · rw [infinite large, otherInfinite large]

end Reckoner.Binary64
