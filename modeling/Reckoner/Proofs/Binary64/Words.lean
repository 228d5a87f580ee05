import Mathlib.Order.Monotone.Basic
import Mathlib.Tactic.Ring
import Reckoner.Binary64.Rounding

namespace Reckoner.Binary64

theorem leadingBit_eq : leadingBit = 2 ^ 52 := by
  decide

theorem infinity_eq : infinity = 2047 * 2 ^ 52 := by
  decide

theorem significand_lt (word : Nat) : significand word < 2 ^ 53 := by
  unfold significand
  rw [leadingBit_eq]
  split <;> omega

/-- Only at the least scale is the leading bit of a significand missing. -/
theorem scale_eq_zero_or_le (word : Nat) : scale word = 0 ∨ 2 ^ 52 ≤ significand word := by
  unfold scale significand
  rw [leadingBit_eq]
  split <;> omega

/-- A word is its scale, in the bits from the leading one on, and its significand. The leading bit
itself raises the scale by one, which is why the scale was lowered by one. -/
theorem scale_add_significand (word : Nat) : scale word * 2 ^ 52 + significand word = word := by
  unfold scale significand
  rw [leadingBit_eq]
  split <;> omega

theorem scale_significand_compose {power bits : Nat} (within : bits < 2 ^ 53)
    (leading : power = 0 ∨ 2 ^ 52 ≤ bits) :
    scale (power * 2 ^ 52 + bits) = power ∧ significand (power * 2 ^ 52 + bits) = bits := by
  unfold scale significand
  rw [leadingBit_eq]
  constructor
  · omega
  · split <;> omega

/-- Every significand of up to 53 bits makes a word with the multiple that it stands for, and so does
the one that carries into the scale. -/
theorem multiple_compose {power bits : Nat} (within : bits ≤ 2 ^ 53)
    (leading : power = 0 ∨ 2 ^ 52 ≤ bits) :
    multiple (power * 2 ^ 52 + bits) = bits * 2 ^ power := by
  rcases Nat.lt_or_eq_of_le within with below | rfl
  · obtain ⟨power_eq, bits_eq⟩ := scale_significand_compose below leading
    rw [multiple, power_eq, bits_eq, Nat.shiftLeft_eq]
  · have carried : power * 2 ^ 52 + 2 ^ 53 = (power + 1) * 2 ^ 52 + 2 ^ 52 := by omega
    obtain ⟨power_eq, bits_eq⟩ :=
      @scale_significand_compose (power + 1) (2 ^ 52) (by decide) (Or.inr le_rfl)
    rw [carried, multiple, power_eq, bits_eq, Nat.shiftLeft_eq, Nat.pow_succ]
    ring

/-- The next word is the next number: it is larger by one unit of the significand. -/
theorem multiple_succ (word : Nat) : multiple (word + 1) = multiple word + 2 ^ scale word := by
  have within := significand_lt word
  have next : scale word * 2 ^ 52 + (significand word + 1) = word + 1 := by
    rw [← Nat.add_assoc, scale_add_significand]
  have leading : scale word = 0 ∨ 2 ^ 52 ≤ significand word + 1 :=
    (scale_eq_zero_or_le word).imp_right Nat.le_succ_of_le
  rw [← next, multiple_compose within leading, multiple, Nat.shiftLeft_eq, Nat.succ_mul]

/-- Words are in the order of their numbers. -/
theorem multiple_strictMono : StrictMono multiple := by
  refine strictMono_nat_of_lt_succ fun word => ?_
  rw [multiple_succ]
  exact Nat.lt_add_of_pos_right (Nat.two_pow_pos _)

end Reckoner.Binary64
