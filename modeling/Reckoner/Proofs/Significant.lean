import Mathlib.Data.Rat.Cast.Order
import Mathlib.Tactic.NormNum
import Mathlib.Tactic.Ring

namespace Reckoner

/-- In base ten the number is written with at most this many digits and zeros behind them, or behind
the point before them. -/
def Significant (count : Nat) (q : ℚ) : Prop :=
  ∃ (digits : Nat) (exponent : Int), digits < 10 ^ count ∧ q = digits * 10 ^ exponent

namespace Significant

theorem mono {few many : Nat} {q : ℚ} (significant : Significant few q) (ordered : few ≤ many) :
    Significant many q := by
  obtain ⟨digits, exponent, within, rfl⟩ := significant
  exact ⟨digits, exponent, within.trans_le (Nat.pow_le_pow_right (by decide) ordered), rfl⟩

theorem scaled {count : Nat} {q : ℚ} (significant : Significant count q) (power : Int) :
    Significant count (q * 10 ^ power) := by
  obtain ⟨digits, exponent, within, rfl⟩ := significant
  refine ⟨digits, exponent + power, within, ?_⟩
  rw [zpow_add₀ (by norm_num), mul_assoc]

theorem zero (count : Nat) : Significant count 0 :=
  ⟨0, 0, Nat.pow_pos (by decide), by rw [Nat.cast_zero, zero_mul]⟩

theorem eq_zero {q : ℚ} (significant : Significant 0 q) : q = 0 := by
  obtain ⟨digits, exponent, within, rfl⟩ := significant
  rw [Nat.lt_one_iff.mp within, Nat.cast_zero, zero_mul]

theorem of_le {count digits : Nat} (within : digits ≤ 10 ^ count) (positive : 0 < count)
    (places : Nat) : Significant count ((digits * 10 ^ places : Nat) : ℚ) := by
  rcases Nat.lt_or_eq_of_le within with below | rfl
  · exact ⟨digits, places, below, by push_cast; rfl⟩
  · refine ⟨1, (count + places : Nat), Nat.one_lt_pow positive.ne' (by decide), ?_⟩
    rw [← Nat.pow_add, zpow_natCast, Nat.cast_one, one_mul, Nat.cast_pow]
    rfl

/-- Between two neighbours on a grid of `count` digits, where numbers have at least that many, there is
no number with so few. -/
theorem grid {x count places : Nat} (positive : 0 < count)
    (long : 10 ^ (count - 1 + places) ≤ x) {y : ℚ} (significant : Significant count y) :
    y ≤ (x / 10 ^ places * 10 ^ places : Nat) ∨
      (((x / 10 ^ places + 1) * 10 ^ places : Nat) : ℚ) ≤ y := by
  have floor : 10 ^ (count - 1) ≤ x / 10 ^ places := by
    rw [Nat.le_div_iff_mul_le (Nat.pow_pos (by decide)), ← Nat.pow_add]
    exact long
  generalize x / 10 ^ places = low at floor
  have step : (0 : ℚ) < 10 ^ places := by positivity
  by_contra between
  obtain ⟨above, below⟩ := not_or.mp between
  rw [not_le] at above below
  push_cast at above below
  obtain ⟨digits, exponent, within, rfl⟩ := significant
  rcases Int.lt_or_le exponent places with fine | coarse
  · -- So fine a number has too few digits to come up to the lower neighbour.
    have digits_le : (digits : ℚ) ≤ 10 ^ (count - 1) * 10 := by
      rw [← pow_succ, Nat.sub_add_cancel positive]
      exact_mod_cast within.le
    have power_le : (10 : ℚ) ^ exponent * 10 ≤ 10 ^ places := by
      rw [← zpow_add_one₀ (by norm_num), ← zpow_natCast]
      exact zpow_le_zpow_right₀ (by norm_num) fine
    have floor_le : (10 : ℚ) ^ (count - 1) ≤ low := by exact_mod_cast floor
    have power : (0 : ℚ) < 10 ^ exponent := zpow_pos (by norm_num) _
    have reached : (digits : ℚ) * 10 ^ exponent ≤ low * 10 ^ places :=
      calc (digits : ℚ) * 10 ^ exponent ≤ 10 ^ (count - 1) * 10 * 10 ^ exponent :=
            mul_le_mul_of_nonneg_right digits_le power.le
        _ = 10 ^ (count - 1) * (10 ^ exponent * 10) := by ring
        _ ≤ low * 10 ^ places :=
            mul_le_mul floor_le power_le (by positivity) (Nat.cast_nonneg low)
    exact absurd above (not_lt.mpr reached)
  · obtain ⟨more, rfl⟩ := Int.le.dest coarse
    rw [zpow_add₀ (by norm_num), zpow_natCast, zpow_natCast, mul_left_comm,
      mul_comm _ (_ * _)] at above below
    have lower := lt_of_mul_lt_mul_right above step.le
    have upper := lt_of_mul_lt_mul_right below step.le
    norm_cast at lower upper
    omega

end Significant

end Reckoner
