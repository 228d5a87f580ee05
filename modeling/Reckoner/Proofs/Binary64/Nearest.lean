import Mathlib.Algebra.Order.Ring.Abs
import Mathlib.Data.Rat.Cast.Order
import Mathlib.Tactic.FieldSimp
import Mathlib.Tactic.Linarith
import Mathlib.Tactic.Positivity
import Reckoner.Proofs.Binary64.Words

namespace Reckoner.Binary64

/-- No word has a multiple nearer to `q`, and if another one is as near, the word is even. Words go on
past that of the infinity here, as if exponents had no upper bound. -/
def NearestMultiple (q : ℚ) (word : Nat) : Prop :=
  ∀ other : Nat, |q - multiple word| ≤ |q - multiple other| ∧
    (|q - multiple word| = |q - multiple other| → other = word ∨ word % 2 = 0)

theorem multiple_cast_le {word other : Nat} (ordered : word ≤ other) :
    (multiple word : ℚ) ≤ multiple other := by
  exact_mod_cast multiple_strictMono.monotone ordered

theorem multiple_cast_lt {word other : Nat} (ordered : word < other) :
    (multiple word : ℚ) < multiple other := by
  exact_mod_cast multiple_strictMono ordered

theorem multiple_cast_injective {word other : Nat} (same : (multiple word : ℚ) = multiple other) :
    word = other := by
  exact multiple_strictMono.injective (by exact_mod_cast same)

theorem nearer_low_iff {q low high : ℚ} (ordered : low < high) :
    |q - low| ≤ |q - high| ↔ 2 * q ≤ low + high := by
  rw [← sq_le_sq]
  constructor <;> intro compared <;> nlinarith

theorem nearer_high_iff {q low high : ℚ} (ordered : low < high) :
    |q - high| ≤ |q - low| ↔ low + high ≤ 2 * q := by
  rw [← sq_le_sq]
  constructor <;> intro compared <;> nlinarith

theorem equal_distance_iff {q low high : ℚ} (ordered : low < high) :
    |q - low| = |q - high| ↔ 2 * q = low + high := by
  rw [abs_eq_abs]
  constructor
  · rintro (same | middle) <;> linarith
  · intro middle
    right
    linarith

/-- The number lies at most half way from the word to the next, and half way only if the word is
even. -/
def HalfAbove (q : ℚ) (word : Nat) : Prop :=
  2 * q ≤ multiple word + multiple (word + 1) ∧
    (2 * q = multiple word + multiple (word + 1) → word % 2 = 0)

/-- The number lies at least half way from the word to the next, and half way only if the next is
even. -/
def HalfBelow (q : ℚ) (word : Nat) : Prop :=
  multiple word + multiple (word + 1) ≤ 2 * q ∧
    (2 * q = multiple word + multiple (word + 1) → (word + 1) % 2 = 0)

theorem halfAbove_of_nearer {q : ℚ} {word : Nat}
    (closest : |q - multiple word| ≤ |q - multiple (word + 1)|)
    (tie : |q - multiple word| = |q - multiple (word + 1)| → word + 1 = word ∨ word % 2 = 0) :
    HalfAbove q word := by
  have ordered := multiple_cast_lt (Nat.lt_succ_self word)
  refine ⟨(nearer_low_iff ordered).mp closest, fun half => ?_⟩
  exact (tie ((equal_distance_iff ordered).mpr half)).resolve_left (Nat.succ_ne_self word)

theorem halfBelow_of_nearer {q : ℚ} {word : Nat}
    (closest : |q - multiple (word + 1)| ≤ |q - multiple word|)
    (tie : |q - multiple (word + 1)| = |q - multiple word| →
      word = word + 1 ∨ (word + 1) % 2 = 0) : HalfBelow q word := by
  have ordered := multiple_cast_lt (Nat.lt_succ_self word)
  refine ⟨(nearer_high_iff ordered).mp closest, fun half => ?_⟩
  exact (tie ((equal_distance_iff ordered).mpr half).symm).resolve_left (Nat.succ_ne_self word).symm

/-- Two neighbours are not both even, and other words leave a gap between their halves. -/
theorem HalfAbove.not_halfBelow {q : ℚ} {word other : Nat} (above : HalfAbove q word)
    (ordered : word ≤ other) : ¬HalfBelow q other := by
  rintro ⟨lower, lowerTie⟩
  obtain ⟨upper, upperTie⟩ := above
  rcases ordered.lt_or_eq with apart | rfl
  · have first := multiple_cast_lt apart
    have second := multiple_cast_le (Nat.succ_le_succ apart.le)
    linarith
  · have even := upperTie (le_antisymm upper lower)
    have nextEven := lowerTie (le_antisymm upper lower)
    omega

/-- It is enough to compare with the two neighbours of a word. -/
theorem nearestMultiple_iff {q : ℚ} {word : Nat} :
    NearestMultiple q word ↔
      HalfAbove q word ∧ ∀ previous, previous + 1 = word → HalfBelow q previous := by
  constructor
  · intro nearest
    obtain ⟨closest, tie⟩ := nearest (word + 1)
    refine ⟨halfAbove_of_nearer closest tie, ?_⟩
    rintro previous rfl
    obtain ⟨closest, tie⟩ := nearest previous
    exact halfBelow_of_nearer closest tie
  · rintro ⟨⟨upper, upperTie⟩, lower⟩ other
    rcases Nat.lt_trichotomy word other with above | rfl | below
    · have ordered := multiple_cast_lt above
      have next := multiple_cast_le (Nat.succ_le_of_lt above)
      refine ⟨(nearer_low_iff ordered).mpr (by linarith), fun equal => Or.inr (upperTie ?_)⟩
      have half := (equal_distance_iff ordered).mp equal
      linarith
    · exact ⟨le_rfl, fun _ => Or.inl rfl⟩
    · have ordered := multiple_cast_lt below
      obtain ⟨previous, rfl⟩ := Nat.exists_eq_succ_of_ne_zero (Nat.ne_zero_of_lt below)
      obtain ⟨reached, lowerTie⟩ := lower previous rfl
      have next := multiple_cast_le (Nat.le_of_lt_succ below)
      refine ⟨(nearer_high_iff ordered).mpr (by linarith), fun equal => Or.inr (lowerTie ?_)⟩
      have half := (equal_distance_iff ordered).mp equal.symm
      linarith

theorem NearestMultiple.not_below {q : ℚ} {word other : Nat} (nearest : NearestMultiple q word)
    (further : NearestMultiple q other) : ¬word < other := by
  intro below
  obtain ⟨previous, rfl⟩ := Nat.exists_eq_succ_of_ne_zero (Nat.ne_zero_of_lt below)
  have above := (nearestMultiple_iff.mp nearest).1
  exact above.not_halfBelow (Nat.le_of_lt_succ below) ((nearestMultiple_iff.mp further).2 previous rfl)

theorem NearestMultiple.unique {q : ℚ} {word other : Nat} (nearest : NearestMultiple q word)
    (further : NearestMultiple q other) : word = other :=
  Nat.le_antisymm (Nat.le_of_not_lt (further.not_below nearest))
    (Nat.le_of_not_lt (nearest.not_below further))

/-- Between two numbers that have the same nearest word, every number has it. -/
theorem NearestMultiple.convex {q low high : ℚ} {word : Nat} (below : NearestMultiple low word)
    (above : NearestMultiple high word) (from_low : low ≤ q) (to_high : q ≤ high) :
    NearestMultiple q word := by
  have lowest := (nearestMultiple_iff.mp below).2
  obtain ⟨highest, highestTie⟩ := (nearestMultiple_iff.mp above).1
  refine nearestMultiple_iff.mpr ⟨⟨by linarith, fun half => highestTie (by linarith)⟩, ?_⟩
  intro previous next
  obtain ⟨reached, tie⟩ := lowest previous next
  exact ⟨by linarith, fun half => tie (by linarith)⟩

/-- A number not below a word is rounded down to it up to half way to the next. -/
theorem nearestMultiple_lower {q : ℚ} {word : Nat} (low : multiple word ≤ q)
    (half : 2 * q < multiple word + multiple (word + 1) ∨
      2 * q = multiple word + multiple (word + 1) ∧ word % 2 = 0) : NearestMultiple q word := by
  refine nearestMultiple_iff.mpr ⟨?_, ?_⟩
  · rcases half with nearer | ⟨tie, even⟩
    · exact ⟨nearer.le, fun equal => absurd equal nearer.ne⟩
    · exact ⟨tie.le, fun _ => even⟩
  · rintro previous rfl
    have step := multiple_cast_lt (Nat.lt_succ_self previous)
    exact ⟨by linarith, fun equal => by linarith⟩

theorem nearestMultiple_upper {q : ℚ} {word : Nat} (high : q ≤ multiple (word + 1))
    (half : multiple word + multiple (word + 1) < 2 * q ∨
      2 * q = multiple word + multiple (word + 1) ∧ (word + 1) % 2 = 0) :
    NearestMultiple q (word + 1) := by
  refine nearestMultiple_iff.mpr ⟨?_, ?_⟩
  · have next := multiple_cast_lt (Nat.lt_succ_self (word + 1))
    exact ⟨by linarith, fun equal => by linarith⟩
  · rintro previous same
    obtain rfl := Nat.succ_injective same
    rcases half with nearer | ⟨tie, even⟩
    · exact ⟨nearer.le, fun equal => absurd equal nearer.ne'⟩
    · exact ⟨tie.ge, fun _ => even⟩

/-- A quotient is rounded down or up, to the nearer side or else to the even one. -/
theorem roundQuotient_cases (num den : Nat) :
    (roundQuotient num den = num / den ∧
      (2 * (num % den) < den ∨ 2 * (num % den) = den ∧ num / den % 2 = 0)) ∨
    (roundQuotient num den = num / den + 1 ∧
      (den < 2 * (num % den) ∨ 2 * (num % den) = den ∧ num / den % 2 = 1)) := by
  unfold roundQuotient
  dsimp only
  split
  · omega
  · split <;> omega

/-- At the scale that rounding takes, a quotient rounded down is a significand. -/
theorem floor_within (floor : Nat) :
    floor / 2 ^ (floor.log2 - 52) < 2 ^ 53 ∧
      (floor.log2 - 52 = 0 ∨ 2 ^ 52 ≤ floor / 2 ^ (floor.log2 - 52)) := by
  have below := Nat.lt_log2_self (n := floor)
  rw [Nat.div_lt_iff_lt_mul (Nat.two_pow_pos _), Nat.le_div_iff_mul_le (Nat.two_pow_pos _),
    ← Nat.pow_add, ← Nat.pow_add]
  have within : floor.log2 + 1 ≤ 53 + (floor.log2 - 52) := by omega
  refine ⟨below.trans_le (Nat.pow_le_pow_right (by decide) within), ?_⟩
  by_cases small : floor.log2 ≤ 52
  · exact Or.inl (by omega)
  · have positive : floor ≠ 0 := by
      rintro rfl
      exact small (by decide)
    have exact : 52 + (floor.log2 - 52) = floor.log2 := by omega
    rw [exact]
    exact Or.inr (Nat.log2_self_le positive)

section Remainder

-- A number lies `t` behind a word, which ends at the scale `power`.
variable {power floor : Nat} {t : ℚ} (within : floor < 2 ^ 53)
  (leading : power = 0 ∨ 2 ^ 52 ≤ floor)
include within leading

theorem multiple_pair :
    (multiple (power * 2 ^ 52 + floor) : ℚ) = floor * 2 ^ power ∧
      (multiple (power * 2 ^ 52 + floor + 1) : ℚ) = (floor + 1) * 2 ^ power := by
  rw [Nat.add_assoc, multiple_compose within.le leading,
    multiple_compose within (leading.imp_right Nat.le_succ_of_le)]
  push_cast
  exact ⟨rfl, rfl⟩

theorem nearestMultiple_down (nonneg : 0 ≤ t)
    (half : 2 * t < 2 ^ power ∨ 2 * t = 2 ^ power ∧ floor % 2 = 0) :
    NearestMultiple (floor * 2 ^ power + t) (power * 2 ^ 52 + floor) := by
  obtain ⟨here, next⟩ := multiple_pair within leading
  refine nearestMultiple_lower (by linarith) ?_
  rw [here, next]
  rcases half with less | ⟨tie, even⟩
  · exact Or.inl (by linarith)
  · exact Or.inr ⟨by linarith, by omega⟩

theorem nearestMultiple_up (bounded : t ≤ 2 ^ power)
    (half : 2 ^ power < 2 * t ∨ 2 * t = 2 ^ power ∧ floor % 2 = 1) :
    NearestMultiple (floor * 2 ^ power + t) (power * 2 ^ 52 + (floor + 1)) := by
  obtain ⟨here, next⟩ := multiple_pair within leading
  rw [← Nat.add_assoc]
  refine nearestMultiple_upper (by linarith) ?_
  rw [here, next]
  rcases half with more | ⟨tie, odd⟩
  · exact Or.inl (by linarith)
  · exact Or.inr ⟨by linarith, by omega⟩

end Remainder

/-- The scale is the least at which the rounded significand has at most 53 bits, and with it the
rounded quotient is the nearest word. -/
theorem nearestMultiple_roundQuotient {num den : Nat} (positive : 0 < den) :
    NearestMultiple ((num : ℚ) / den) (((num / den).log2 - 52) * 2 ^ 52 +
      roundQuotient num (den <<< ((num / den).log2 - 52))) := by
  obtain ⟨within, leading⟩ := floor_within (num / den)
  generalize (num / den).log2 - 52 = power at within leading ⊢
  rw [Nat.div_div_eq_div_mul] at within leading
  rw [Nat.shiftLeft_eq]
  have rounded := roundQuotient_cases num (den * 2 ^ power)
  have split := Nat.div_add_mod num (den * 2 ^ power)
  have rest := Nat.mod_lt num (Nat.mul_pos positive (Nat.two_pow_pos power))
  generalize num / (den * 2 ^ power) = floor at within leading rounded split
  generalize num % (den * 2 ^ power) = rem at rounded split rest
  have den_pos : (0 : ℚ) < den := by exact_mod_cast positive
  have quotient : (num : ℚ) / den = floor * 2 ^ power + rem / den := by
    rw [div_eq_iff den_pos.ne', add_mul, div_mul_cancel₀ _ den_pos.ne', ← split]
    push_cast
    ring
  have double : 2 * ((rem : ℚ) / den) = (2 * rem : Nat) / den := by
    rw [mul_div_assoc', Nat.cast_mul]
    rfl
  have unit : (2 : ℚ) ^ power = (den * 2 ^ power : Nat) / den := by
    rw [eq_div_iff den_pos.ne', mul_comm]
    push_cast
    rfl
  have halves (tie : 2 * rem = den * 2 ^ power) : 2 * ((rem : ℚ) / den) = 2 ^ power := by
    rw [double, unit, tie]
  rw [quotient]
  rcases rounded with ⟨down, half⟩ | ⟨up, half⟩
  · rw [down]
    refine nearestMultiple_down within leading (by positivity) ?_
    refine half.imp (fun below => ?_) fun tie => ⟨halves tie.1, tie.2⟩
    rw [double, unit]
    exact div_lt_div_of_pos_right (by exact_mod_cast below) den_pos
  · rw [up]
    refine nearestMultiple_up within leading ?_ ?_
    · rw [unit]
      exact div_le_div_of_nonneg_right (by exact_mod_cast rest.le) den_pos.le
    · refine half.imp (fun above => ?_) fun tie => ⟨halves tie.1, tie.2⟩
      rw [double, unit]
      exact div_lt_div_of_pos_right (by exact_mod_cast above) den_pos

end Reckoner.Binary64
