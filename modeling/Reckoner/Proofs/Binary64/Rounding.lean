import Mathlib.Tactic.NormNum
import Mathlib.Tactic.Positivity
import Reckoner.Proofs.Binary64.Nearest

namespace Reckoner

/-- The rational number that a decimal writes. -/
def Decimal.toRat (decimal : Decimal) : ℚ :=
  decimal.coefficient * 10 ^ decimal.exponent

theorem Decimal.toRat_nonneg (decimal : Decimal) : 0 ≤ decimal.toRat :=
  mul_nonneg (Nat.cast_nonneg _) (zpow_nonneg (by norm_num) _)

namespace Binary64

/-- The word that a number not below zero is rounded to, in units of the smallest positive number:
the nearest one, or the infinity if the nearest lies past the finite numbers. -/
def RoundsTo (q : ℚ) (word : Nat) : Prop :=
  ∃ unbounded, NearestMultiple q unbounded ∧ word = min infinity unbounded

theorem RoundsTo.unique {q : ℚ} {word other : Nat} (rounds : RoundsTo q word)
    (again : RoundsTo q other) : word = other := by
  obtain ⟨unbounded, nearest, rfl⟩ := rounds
  obtain ⟨further, nearestToo, rfl⟩ := again
  rw [nearest.unique nearestToo]

theorem RoundsTo.le_infinity {q : ℚ} {word : Nat} (rounds : RoundsTo q word) : word ≤ infinity := by
  obtain ⟨unbounded, _, rfl⟩ := rounds
  exact Nat.min_le_left _ _

/-- A number that is at least a word's is not rounded below that word. -/
theorem NearestMultiple.le_of_multiple_le {q : ℚ} {word bound : Nat}
    (nearest : NearestMultiple q word) (above : multiple bound ≤ q) : bound ≤ word := by
  by_contra less
  have lower := multiple_cast_lt (Nat.lt_of_not_le less)
  have closest := (nearer_low_iff lower).mp (nearest bound).1
  linarith

theorem roundsTo_nearest {num den : Nat} (positive : 0 < den) :
    RoundsTo ((num : ℚ) / den * 2 ^ depth) (nearest num den) := by
  have scaled : (num : ℚ) / den * 2 ^ depth = ((num <<< depth : Nat) : ℚ) / den := by
    rw [Nat.shiftLeft_eq, Nat.cast_mul, Nat.cast_pow, Nat.cast_two]
    ring
  rw [scaled]
  exact ⟨_, nearestMultiple_roundQuotient positive, rfl⟩

/-- The infinity takes the place of the power of two that would come next. -/
theorem multiple_infinity : multiple infinity = 2 ^ 1024 * 2 ^ depth := by
  have composed (power : Nat) : multiple (power * 2 ^ 52 + 2 ^ 52) = 2 ^ (52 + power) := by
    rw [multiple_compose (by decide) (Or.inr le_rfl), Nat.pow_add]
  have powers : 52 + 2046 = 1024 + depth := by decide
  have word : infinity = 2046 * 2 ^ 52 + 2 ^ 52 := by decide
  rw [word, composed, powers]
  exact pow_add 2 1024 depth

theorem roundsTo_infinity {num den : Nat} (positive : 0 < den)
    (large : (2 ^ 1024 : ℚ) ≤ (num : ℚ) / den) :
    RoundsTo ((num : ℚ) / den * 2 ^ depth) infinity := by
  obtain ⟨unbounded, rounded, _⟩ : RoundsTo ((num : ℚ) / den * 2 ^ depth) (nearest num den) :=
    roundsTo_nearest positive
  have above : multiple infinity ≤ (num : ℚ) / den * 2 ^ depth := by
    rw [multiple_infinity, Nat.cast_mul, Nat.cast_pow, Nat.cast_pow, Nat.cast_two]
    exact mul_le_mul_of_nonneg_right large (by positivity)
  exact ⟨unbounded, rounded, (Nat.min_eq_left (rounded.le_of_multiple_le above)).symm⟩

theorem roundsTo_zero {q : ℚ} (nonneg : 0 ≤ q) (small : 2 * q < 1) : RoundsTo q 0 := by
  have zero : multiple 0 = 0 := by decide
  have one : multiple 1 = 1 := by decide
  refine ⟨0, nearestMultiple_lower ?_ (Or.inl ?_), (Nat.min_zero _).symm⟩ <;>
    simp only [zero, one, Nat.zero_add, Nat.cast_zero, Nat.cast_one] <;> linarith

/-- A coefficient of `b` bits, moved `b` and 324 more places behind the point, is less than half the
smallest positive number. -/
theorem roundsTo_zero_of_places {coefficient places : Nat}
    (out : coefficient.log2 + 1 + 324 ≤ places) :
    RoundsTo ((coefficient : ℚ) / Decimal.powerOfTen places * 2 ^ depth) 0 := by
  have bits := Nat.lt_log2_self (n := coefficient)
  have small : 2 * (coefficient * 2 ^ depth) < 10 ^ places := by
    calc 2 * (coefficient * 2 ^ depth) < 2 * (2 ^ (coefficient.log2 + 1) * 2 ^ depth) :=
          Nat.mul_lt_mul_of_pos_left (Nat.mul_lt_mul_of_pos_right bits (Nat.two_pow_pos _)) (by decide)
      _ = 2 ^ (coefficient.log2 + 1) * 2 ^ (depth + 1) := by ring
      _ ≤ 10 ^ (coefficient.log2 + 1) * 10 ^ 324 :=
          Nat.mul_le_mul (Nat.pow_le_pow_left (by decide) _) (by decide +kernel)
      _ = 10 ^ (coefficient.log2 + 1 + 324) := (pow_add 10 _ 324).symm
      _ ≤ 10 ^ places := Nat.pow_le_pow_right (by decide) out
  have power : (0 : ℚ) < Decimal.powerOfTen places := by
    exact_mod_cast (Nat.pow_pos (by decide) : 0 < 10 ^ places)
  refine roundsTo_zero (by positivity) ?_
  rw [div_mul_eq_mul_div, mul_div_assoc', div_lt_one power]
  exact_mod_cast small

/-- Every decimal that is not negative is rounded to nearest, whatever its digits and its
exponent. -/
theorem roundsTo_ofDecimal (decimal : Decimal) :
    RoundsTo (decimal.toRat * 2 ^ depth) (ofDecimal decimal) := by
  obtain ⟨coefficient, exponent⟩ := decimal
  unfold ofDecimal Decimal.toRat
  cases exponent with
  | ofNat up =>
    have integer : (coefficient : ℚ) * 10 ^ (Int.ofNat up) =
        ((coefficient * Decimal.powerOfTen up : Nat) : ℚ) / (1 : Nat) := by
      rw [Int.ofNat_eq_natCast, zpow_natCast, Nat.cast_one, div_one, Nat.cast_mul]
      exact congrArg (_ * ·) (Nat.cast_pow 10 up).symm
    dsimp only
    rw [integer]
    split
    · rename_i zero
      rw [zero, Nat.zero_mul, Nat.cast_zero, zero_div, zero_mul]
      exact roundsTo_zero le_rfl (by norm_num)
    · split
      · rename_i nonzero large
        refine roundsTo_infinity Nat.one_pos ?_
        rw [Nat.cast_one, div_one]
        have enough : 2 ^ 1024 ≤ coefficient * 10 ^ up :=
          calc 2 ^ 1024 ≤ 1 * 10 ^ 309 := by decide +kernel
            _ ≤ coefficient * 10 ^ up :=
              Nat.mul_le_mul (Nat.pos_of_ne_zero nonzero) (Nat.pow_le_pow_right (by decide) large)
        exact_mod_cast enough
      · exact roundsTo_nearest Nat.one_pos
  | negSucc pred =>
    have fraction : (coefficient : ℚ) * 10 ^ (Int.negSucc pred) =
        (coefficient : ℚ) / Decimal.powerOfTen (pred + 1) := by
      rw [zpow_negSucc, ← div_eq_mul_inv]
      exact congrArg (_ / ·) (Nat.cast_pow 10 (pred + 1)).symm
    dsimp only
    rw [fraction]
    split
    · rename_i out
      exact roundsTo_zero_of_places out
    · exact roundsTo_nearest (Nat.pow_pos (by decide))

end Binary64

end Reckoner
