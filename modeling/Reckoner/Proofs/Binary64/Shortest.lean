import Reckoner.Binary64.Shortest
import Reckoner.Proofs.Binary64.Rounding
import Reckoner.Proofs.Significant

namespace Reckoner.Binary64

theorem multiple_succ_le (word : Nat) : multiple (word + 1) ≤ 2 ^ 53 * 2 ^ scale word := by
  rw [multiple_succ, multiple, Nat.shiftLeft_eq, ← Nat.succ_mul]
  exact Nat.mul_le_mul_right _ (significand_lt word)

/-- So near to a word, by its own size, there is no other that is as near. -/
theorem nearestMultiple_of_close {q : ℚ} {word : Nat}
    (close : 2 * 10 ^ 16 * |q - multiple word| ≤ multiple word) : NearestMultiple q word := by
  have below := neg_abs_le (q - multiple word)
  have above := le_abs_self (q - multiple word)
  have gap (other : Nat) : (multiple (other + 1) : ℚ) = multiple other + 2 ^ scale other ∧
      (multiple (other + 1) : ℚ) ≤ 2 ^ 53 * 2 ^ scale other ∧ (0 : ℚ) < 2 ^ scale other :=
    ⟨by exact_mod_cast multiple_succ other, by exact_mod_cast multiple_succ_le other, by positivity⟩
  refine nearestMultiple_iff.mpr ⟨?_, ?_⟩
  · obtain ⟨next, bound, positive⟩ := gap word
    have less : 2 * q < multiple word + multiple (word + 1) := by linarith
    exact ⟨less.le, fun equal => absurd equal less.ne⟩
  · rintro previous rfl
    obtain ⟨next, bound, positive⟩ := gap previous
    have more : (multiple previous + multiple (previous + 1) : ℚ) < 2 * q := by linarith
    exact ⟨more.le, fun equal => absurd equal more.ne'⟩

/-- The number is rounded to the finite number of this word. -/
def ReadsBack (word : Nat) (q : ℚ) : Prop :=
  NearestMultiple (q * 2 ^ depth) word

theorem ReadsBack.convex {q low high : ℚ} {word : Nat} (below : ReadsBack word low)
    (above : ReadsBack word high) (from_low : low ≤ q) (to_high : q ≤ high) : ReadsBack word q :=
  NearestMultiple.convex below above (mul_le_mul_of_nonneg_right from_low (by positivity))
    (mul_le_mul_of_nonneg_right to_high (by positivity))

theorem readsBack_of_roundsTo {q : ℚ} {word : Nat} (finite : word < infinity)
    (rounds : RoundsTo (q * 2 ^ depth) word) : ReadsBack word q := by
  obtain ⟨unbounded, nearest, word_eq⟩ := rounds
  have same : word = unbounded := by omega
  rwa [ReadsBack, same]

theorem ReadsBack.roundsTo {q : ℚ} {word : Nat} (finite : word < infinity)
    (back : ReadsBack word q) : RoundsTo (q * 2 ^ depth) word :=
  ⟨word, back, (Nat.min_eq_right finite.le).symm⟩

/-- The unit of a number that is written out, with its point left out. -/
def unit (word : Nat) : ℚ :=
  10 ^ places word

theorem unit_pos (word : Nat) : 0 < unit word :=
  pow_pos (by norm_num) _

theorem readsBack_iff {word : Nat} (finite : word < infinity) (n : Nat) :
    readsBack word n = true ↔ ReadsBack word (n / unit word) := by
  have power : (Decimal.powerOfTen (places word) : ℚ) = unit word := Nat.cast_pow 10 _
  have rounds : RoundsTo ((n : ℚ) / unit word * 2 ^ depth)
      (nearest n (Decimal.powerOfTen (places word))) := by
    rw [← power]
    exact roundsTo_nearest (Nat.pow_pos (by decide))
  rw [readsBack, decide_eq_true_iff]
  constructor
  · intro back
    rw [back] at rounds
    exact readsBack_of_roundsTo finite rounds
  · intro back
    exact rounds.unique (back.roundsTo finite)

/-- Written out, a number is exact. -/
theorem writtenOut_div_unit (word : Nat) :
    (writtenOut word : ℚ) / unit word * 2 ^ depth = multiple word := by
  have exact : writtenOut word * 2 ^ depth = multiple word * 10 ^ places word := by
    have powers : 2 ^ (scale word - depth) * 2 ^ depth = 2 ^ scale word * 2 ^ places word := by
      rw [← Nat.pow_add, ← Nat.pow_add]
      exact congrArg (2 ^ ·) (by unfold places; omega)
    have tens : 10 ^ places word = 2 ^ places word * 5 ^ places word := Nat.mul_pow 2 5 _
    have arrange (s p f d : Nat) : s * p * f * d = s * f * (p * d) := by ring
    calc writtenOut word * 2 ^ depth
        = significand word * 5 ^ places word * (2 ^ (scale word - depth) * 2 ^ depth) := by
          rw [writtenOut, Nat.shiftLeft_eq]
          exact arrange ..
      _ = multiple word * 10 ^ places word := by
          rw [powers, tens, multiple, Nat.shiftLeft_eq]
          ring
  have cast := congrArg (Nat.cast : Nat → ℚ) exact
  rw [Nat.cast_mul, Nat.cast_mul, Nat.cast_pow, Nat.cast_pow, Nat.cast_two, Nat.cast_ofNat] at cast
  rw [div_mul_eq_mul_div, div_eq_iff (unit_pos word).ne', cast, unit]

theorem readsBack_writtenOut (word : Nat) : ReadsBack word (writtenOut word / unit word) := by
  rw [ReadsBack, writtenOut_div_unit]
  refine nearestMultiple_of_close ?_
  rw [sub_self, abs_zero, mul_zero]
  exact Nat.cast_nonneg _

theorem readsBack_of_close {word : Nat} (finite : word < infinity) {n : Nat}
    (close : 2 * 10 ^ 16 * |(n : ℚ) - writtenOut word| ≤ writtenOut word) :
    readsBack word n = true := by
  rw [readsBack_iff finite]
  refine nearestMultiple_of_close ?_
  have ratio : (0 : ℚ) < 2 ^ depth / unit word := div_pos (by positivity) (unit_pos word)
  have scaled (x : ℚ) : x / unit word * 2 ^ depth = x * (2 ^ depth / unit word) := by
    rw [div_mul_eq_mul_div, mul_div_assoc]
  rw [← writtenOut_div_unit, scaled, scaled, ← sub_mul, abs_mul, abs_of_pos ratio, ← mul_assoc]
  exact mul_le_mul_of_nonneg_right close ratio.le

section Neighbour

variable {word x step n : Nat}

theorem neighbour?_eq_none_iff :
    neighbour? word x step = none ↔
      readsBack word (x / step * step) = false ∧ readsBack word (x / step * step + step) = false := by
  unfold neighbour?
  dsimp only
  generalize x / step * step = low
  by_cases nearer : x - low < low + step - x <;>
    cases readsBack word low <;> cases readsBack word (low + step) <;> simp [nearer]

/-- A neighbour that is found reads back, and the other is farther off or does not. The lower one is
not found either where the upper one is as near. -/
theorem neighbour?_eq_some (found : neighbour? word x step = some n) :
    readsBack word n = true ∧
      (n = x / step * step ∧ (readsBack word (x / step * step + step) = true →
        x - x / step * step < x / step * step + step - x) ∨
      n = x / step * step + step ∧ (readsBack word (x / step * step) = true →
        x / step * step + step - x ≤ x - x / step * step)) := by
  unfold neighbour? at found
  dsimp only at found
  generalize x / step * step = low at found ⊢
  cases lower : readsBack word low <;> cases upper : readsBack word (low + step) <;>
    simp only [lower, upper, Bool.true_and, Bool.false_and, Bool.not_true, Bool.not_false,
      Bool.or_true, Bool.or_false, Bool.false_eq_true, if_true, if_false] at found
  · cases found
  · cases found
    exact ⟨upper, Or.inr ⟨rfl, nofun⟩⟩
  · cases found
    exact ⟨lower, Or.inl ⟨rfl, nofun⟩⟩
  · split at found
    · rename_i nearer
      cases found
      exact ⟨lower, Or.inl ⟨rfl, fun _ => of_decide_eq_true nearer⟩⟩
    · rename_i farther
      cases found
      have less := mt decide_eq_true farther
      exact ⟨upper, Or.inr ⟨rfl, fun _ => Nat.le_of_not_lt less⟩⟩

end Neighbour

theorem findSome?_range {α : Type} {f : Nat → Option α} {n : Nat} {found : α}
    (first : (List.range n).findSome? f = some found) :
    ∃ i, f i = some found ∧ ∀ j < i, f j = none := by
  induction n with
  | zero => cases first
  | succ n ih =>
    rw [List.range_succ, List.findSome?_append] at first
    cases earlier : (List.range n).findSome? f with
    | some other =>
      rw [earlier] at first
      cases first
      exact ih earlier
    | none =>
      rw [earlier, Option.none_or, List.findSome?_singleton] at first
      exact ⟨n, first, fun j below =>
        List.findSome?_eq_none_iff.mp earlier j (List.mem_range.mpr below)⟩

section Shortest

variable {word : Nat}

/-- How many digits a number has when it is written out. -/
def digitCount (word : Nat) : Nat :=
  (Nat.toDigits 10 (writtenOut word)).length

/-- The step of the grid of the numbers that are as large and have this many digits. -/
def grid (word count : Nat) : Nat :=
  10 ^ (digitCount word - count)

def lowNeighbour (word count : Nat) : Nat :=
  writtenOut word / grid word count * grid word count

def highNeighbour (word count : Nat) : Nat :=
  lowNeighbour word count + grid word count

def candidate (word count : Nat) : Option Nat :=
  neighbour? word (writtenOut word) (grid word count)

theorem grid_pos (word count : Nat) : 0 < grid word count :=
  Nat.pow_pos (by decide)

theorem low_le (word count : Nat) : lowNeighbour word count ≤ writtenOut word :=
  Nat.div_mul_le_self _ _

theorem le_high (word count : Nat) : writtenOut word ≤ highNeighbour word count :=
  (Nat.lt_div_mul_add (grid_pos word count)).le

theorem candidate_eq_none_iff {count : Nat} :
    candidate word count = none ↔
      readsBack word (lowNeighbour word count) = false ∧
        readsBack word (highNeighbour word count) = false :=
  neighbour?_eq_none_iff

theorem digitCount_pos (word : Nat) : 0 < digitCount word :=
  Nat.length_toDigits_pos

theorem writtenOut_lt (word : Nat) : writtenOut word < 10 ^ digitCount word :=
  (Nat.length_toDigits_le_iff (by decide) (digitCount_pos word)).mp le_rfl

theorem le_writtenOut (nonzero : writtenOut word ≠ 0) :
    10 ^ (digitCount word - 1) ≤ writtenOut word := by
  have positive := digitCount_pos word
  by_contra small
  by_cases single : digitCount word = 1
  · rw [single] at small
    exact small (Nat.pos_of_ne_zero nonzero)
  · have shorter := (Nat.length_toDigits_le_iff (k := digitCount word - 1) (by decide) (by omega)).mpr
      (Nat.lt_of_not_le small)
    have short : digitCount word ≤ digitCount word - 1 := shorter
    omega

/-- With all its digits the number itself is on the grid. -/
theorem candidate_whole (finite : word < infinity) : candidate word (digitCount word) ≠ none := by
  intro none
  have below := (candidate_eq_none_iff.mp none).1
  rw [lowNeighbour, grid, Nat.sub_self, Nat.pow_zero, Nat.div_one, Nat.mul_one] at below
  have back := (readsBack_iff finite _).mpr (readsBack_writtenOut word)
  rw [below] at back
  cases back

/-- On a grid of seventeen digits the nearer neighbour reads back. -/
theorem candidate_seventeen (finite : word < infinity) (long : 17 ≤ digitCount word)
    (nonzero : writtenOut word ≠ 0) : candidate word 17 ≠ none := by
  intro none
  obtain ⟨lower, upper⟩ := candidate_eq_none_iff.mp none
  have size : (10 ^ 16 * grid word 17 : ℚ) ≤ writtenOut word := by
    have exponent : 16 + (digitCount word - 17) = digitCount word - 1 := by omega
    have size : 10 ^ 16 * grid word 17 ≤ writtenOut word := by
      rw [grid, ← Nat.pow_add, exponent]
      exact le_writtenOut nonzero
    exact_mod_cast size
  have far {n : Nat} (back : readsBack word n = false) :
      (grid word 17 : ℚ) < 2 * |(n : ℚ) - writtenOut word| := by
    by_contra near
    have reads := readsBack_of_close finite (n := n) (by linarith)
    rw [back] at reads
    cases reads
  have farLow := far lower
  have farHigh := far upper
  have below : (lowNeighbour word 17 : ℚ) ≤ writtenOut word := Nat.cast_le.mpr (low_le word 17)
  have above : (writtenOut word : ℚ) ≤ highNeighbour word 17 := Nat.cast_le.mpr (le_high word 17)
  have between : (highNeighbour word 17 : ℚ) = lowNeighbour word 17 + grid word 17 := Nat.cast_add _ _
  rw [abs_sub_comm, abs_of_nonneg (by linarith)] at farLow
  rw [abs_of_nonneg (by linarith)] at farHigh
  linarith

/-- The coarsest grid on which a neighbour reads back. What is printed is found there. -/
structure IsCoarsest (word count : Nat) : Prop where
  positive : 0 < count
  within : count ≤ digitCount word
  found : candidate word count = some (shortest word)
  failed : ∀ fewer, 0 < fewer → fewer < count → candidate word fewer = none

theorem exists_coarsest (finite : word < infinity) (nonzero : writtenOut word ≠ 0) :
    ∃ count, IsCoarsest word count := by
  have positive := digitCount_pos word
  have shortest_eq : shortest word =
    ((List.range 17).findSome? fun i => candidate word (i + 1)).getD (writtenOut word) := rfl
  cases first : (List.range 17).findSome? fun i => candidate word (i + 1) with
  | none =>
    have failed (count : Nat) (begun : 0 < count) (within : count ≤ 17) :
        candidate word count = none := by
      obtain ⟨i, rfl⟩ := Nat.exists_eq_succ_of_ne_zero begun.ne'
      exact List.findSome?_eq_none_iff.mp first i (List.mem_range.mpr within)
    rcases Nat.le_total (digitCount word) 17 with short | long
    · exact absurd (failed _ positive short) (candidate_whole finite)
    · exact absurd (failed 17 (by decide) le_rfl) (candidate_seventeen finite long nonzero)
  | some found =>
    obtain ⟨i, reads, earlier⟩ := findSome?_range first
    have failed (fewer : Nat) (begun : 0 < fewer) (less : fewer < i + 1) :
        candidate word fewer = none := by
      obtain ⟨j, rfl⟩ := Nat.exists_eq_succ_of_ne_zero begun.ne'
      exact earlier j (Nat.lt_of_succ_lt_succ less)
    rw [first, Option.getD_some] at shortest_eq
    rw [← shortest_eq] at reads
    refine ⟨i + 1, Nat.succ_pos i, ?_, reads, failed⟩
    by_contra long
    exact candidate_whole finite (failed _ positive (Nat.lt_of_not_le long))

/-- A number with few digits that reads back lies beyond a neighbour on their grid, which then reads
back as well. -/
theorem ReadsBack.beyond {q : ℚ} {count : Nat} (back : ReadsBack word q) (finite : word < infinity)
    (nonzero : writtenOut word ≠ 0) (positive : 0 < count) (within : count ≤ digitCount word)
    (significant : Significant count q) :
    (q * unit word ≤ lowNeighbour word count ∧ readsBack word (lowNeighbour word count) = true) ∨
      ((highNeighbour word count : ℚ) ≤ q * unit word ∧
        readsBack word (highNeighbour word count) = true) := by
  have long : 10 ^ (count - 1 + (digitCount word - count)) ≤ writtenOut word := by
    have exponent : count - 1 + (digitCount word - count) = digitCount word - 1 := by omega
    rw [exponent]
    exact le_writtenOut nonzero
  have apart : q * unit word ≤ lowNeighbour word count ∨
      (highNeighbour word count : ℚ) ≤ q * unit word := by
    have sides := Significant.grid positive long (significant.scaled (places word))
    rwa [zpow_natCast, Nat.succ_mul] at sides
  have exact := readsBack_writtenOut word
  have unit_pos := unit_pos word
  refine apart.imp (fun below => ⟨below, ?_⟩) (fun above => ⟨above, ?_⟩)
  · refine (readsBack_iff finite _).mpr (back.convex exact ((le_div_iff₀ unit_pos).mpr below) ?_)
    exact div_le_div_of_nonneg_right (Nat.cast_le.mpr (low_le word count)) unit_pos.le
  · refine (readsBack_iff finite _).mpr (exact.convex back ?_ ((div_le_iff₀ unit_pos).mpr above))
    exact div_le_div_of_nonneg_right (Nat.cast_le.mpr (le_high word count)) unit_pos.le

theorem readsBack_zero : ReadsBack 0 0 := by
  refine nearestMultiple_of_close ?_
  have none : multiple 0 = 0 := by decide
  rw [none, zero_mul, Nat.cast_zero, sub_zero, abs_zero, mul_zero]

namespace IsCoarsest

variable {count : Nat} (coarsest : IsCoarsest word count)
include coarsest

/-- What is printed is one of the two neighbours, and where both read back it is the nearer one. -/
theorem sides :
    shortest word = lowNeighbour word count ∧
      (readsBack word (highNeighbour word count) = true →
        writtenOut word - lowNeighbour word count < highNeighbour word count - writtenOut word) ∨
    shortest word = highNeighbour word count ∧
      (readsBack word (lowNeighbour word count) = true →
        highNeighbour word count - writtenOut word ≤ writtenOut word - lowNeighbour word count) :=
  (neighbour?_eq_some coarsest.found).2

theorem significant_neighbour {digits : Nat} (few : digits ≤ 10 ^ count) :
    Significant count ((digits * grid word count : Nat) / unit word) := by
  have significant := Significant.of_le few coarsest.positive (digitCount word - count)
  have scaled := significant.scaled (-(places word))
  rwa [zpow_neg, zpow_natCast, ← div_eq_mul_inv] at scaled

theorem significant : Significant count (shortest word / unit word) := by
  have below : writtenOut word / grid word count < 10 ^ count := by
    refine Nat.div_lt_of_lt_mul ?_
    rw [grid, ← Nat.pow_add, Nat.sub_add_cancel coarsest.within]
    exact writtenOut_lt word
  rcases coarsest.sides with ⟨lower, _⟩ | ⟨upper, _⟩
  · rw [lower]
    exact coarsest.significant_neighbour below.le
  · rw [upper, highNeighbour, lowNeighbour, ← Nat.succ_mul]
    exact coarsest.significant_neighbour below

/-- With fewer digits no number reads back. -/
theorem not_fewer (finite : word < infinity) (nonzero : writtenOut word ≠ 0) {q : ℚ} {fewer : Nat}
    (back : ReadsBack word q) (significant : Significant fewer q) : count ≤ fewer := by
  by_contra less
  have less := Nat.lt_of_not_le less
  have begun : 0 < fewer := by
    refine Nat.pos_of_ne_zero ?_
    rintro rfl
    rw [significant.eq_zero] at back
    have zero := back.unique readsBack_zero
    subst zero
    exact nonzero (by decide +kernel)
  obtain ⟨lower, upper⟩ := candidate_eq_none_iff.mp (coarsest.failed fewer begun less)
  rcases back.beyond finite nonzero begun (less.le.trans coarsest.within) significant with
    ⟨_, reads⟩ | ⟨_, reads⟩
  · rw [lower] at reads
    cases reads
  · rw [upper] at reads
    cases reads

/-- What is printed is no farther off than a neighbour that reads back. -/
theorem distance_le :
    (readsBack word (lowNeighbour word count) = true →
      |(shortest word : ℚ) - writtenOut word| ≤ writtenOut word - lowNeighbour word count) ∧
    (readsBack word (highNeighbour word count) = true →
      |(shortest word : ℚ) - writtenOut word| ≤ highNeighbour word count - writtenOut word) := by
  have floor := low_le word count
  have ceiling := le_high word count
  have below : (lowNeighbour word count : ℚ) ≤ writtenOut word := Nat.cast_le.mpr floor
  have above : (writtenOut word : ℚ) ≤ highNeighbour word count := Nat.cast_le.mpr ceiling
  rcases coarsest.sides with ⟨lower, nearer⟩ | ⟨upper, nearer⟩
  · rw [lower, abs_sub_comm, abs_of_nonneg (by linarith)]
    refine ⟨fun _ => le_rfl, fun reads => ?_⟩
    rw [← Nat.cast_sub floor, ← Nat.cast_sub ceiling]
    exact Nat.cast_le.mpr (nearer reads).le
  · rw [upper, abs_of_nonneg (by linarith)]
    refine ⟨fun reads => ?_, fun _ => le_rfl⟩
    rw [← Nat.cast_sub floor, ← Nat.cast_sub ceiling]
    exact Nat.cast_le.mpr (nearer reads)

theorem nearest (finite : word < infinity) (nonzero : writtenOut word ≠ 0) {q : ℚ}
    (back : ReadsBack word q) (significant : Significant count q) :
    |(shortest word : ℚ) - writtenOut word| ≤ |q * unit word - writtenOut word| := by
  obtain ⟨toLow, toHigh⟩ := coarsest.distance_le
  rcases back.beyond finite nonzero coarsest.positive coarsest.within significant with
    ⟨less, reads⟩ | ⟨more, reads⟩
  · have near := toLow reads
    have far := neg_abs_le (q * unit word - writtenOut word)
    linarith
  · have near := toHigh reads
    have far := le_abs_self (q * unit word - writtenOut word)
    linarith

/-- A number with as few digits that is as near lies on the other side, below. -/
theorem le_of_near (finite : word < infinity) (nonzero : writtenOut word ≠ 0) {q : ℚ}
    (back : ReadsBack word q) (significant : Significant count q)
    (near : |q * unit word - writtenOut word| ≤ |(shortest word : ℚ) - writtenOut word|) :
    q * unit word ≤ shortest word := by
  have floor : (lowNeighbour word count : ℚ) ≤ writtenOut word := Nat.cast_le.mpr (low_le word count)
  have ceiling : (writtenOut word : ℚ) ≤ highNeighbour word count :=
    Nat.cast_le.mpr (le_high word count)
  rcases back.beyond finite nonzero coarsest.positive coarsest.within significant with
    ⟨less, _⟩ | ⟨more, reads⟩ <;> rcases coarsest.sides with ⟨lower, nearer⟩ | ⟨upper, _⟩
  · rwa [lower]
  · rw [upper]
    linarith
  · have strict : (writtenOut word : ℚ) - lowNeighbour word count <
        highNeighbour word count - writtenOut word := by
      rw [← Nat.cast_sub (low_le word count), ← Nat.cast_sub (le_high word count)]
      exact Nat.cast_lt.mpr (nearer reads)
    rw [lower, abs_of_nonpos (sub_nonpos.mpr floor)] at near
    have far := le_abs_self (q * unit word - writtenOut word)
    linarith
  · rw [upper, abs_of_nonneg (sub_nonneg.mpr ceiling)] at near
    rw [upper]
    have far := le_abs_self (q * unit word - writtenOut word)
    linarith

end IsCoarsest

/-- No number that is rounded to this word is written with fewer digits, and none with as few is nearer
to the number of the word. Of two that are equally near it is the greater one. -/
structure IsShortest (word : Nat) (q : ℚ) : Prop where
  back : ReadsBack word q
  fewest : ∀ other count, ReadsBack word other → Significant count other → Significant count q
  closest : ∀ other, ReadsBack word other → (∀ count, Significant count q → Significant count other) →
    |q - multiple word / 2 ^ depth| ≤ |other - multiple word / 2 ^ depth|
  upper : ∀ other, ReadsBack word other → (∀ count, Significant count q → Significant count other) →
    |other - multiple word / 2 ^ depth| ≤ |q - multiple word / 2 ^ depth| → other ≤ q

theorem isShortest_zero : IsShortest 0 0 := by
  have exact : multiple 0 = 0 := by decide
  refine ⟨readsBack_zero, fun _ count _ _ => Significant.zero count, fun other _ _ => ?_,
    fun other _ _ near => ?_⟩
  · rw [exact, Nat.cast_zero, zero_div, sub_zero, abs_zero]
    exact abs_nonneg _
  · rw [exact, Nat.cast_zero, zero_div, sub_zero, sub_zero, abs_zero] at near
    exact (le_abs_self other).trans near

theorem multiple_div (word : Nat) :
    (multiple word : ℚ) / 2 ^ depth = writtenOut word / unit word := by
  rw [← writtenOut_div_unit, mul_div_cancel_right₀ _ (pow_ne_zero _ (by norm_num))]

/-- The distance from the number of a word, with the point left out. -/
theorem distance_mul_unit (word : Nat) (q : ℚ) :
    |q - multiple word / 2 ^ depth| * unit word = |q * unit word - writtenOut word| := by
  have positive := unit_pos word
  rw [multiple_div, ← abs_of_pos positive, ← abs_mul, abs_of_pos positive, sub_mul,
    div_mul_cancel₀ _ positive.ne']

theorem writtenOut_ne_zero (nonzero : word ≠ 0) : writtenOut word ≠ 0 := by
  intro none
  have exact := writtenOut_div_unit word
  rw [none, Nat.cast_zero, zero_div, zero_mul] at exact
  have zero : multiple 0 = 0 := by decide
  refine nonzero (multiple_cast_injective ?_)
  rw [← exact, zero, Nat.cast_zero]

theorem isShortest_shortest (finite : word < infinity) :
    IsShortest word (shortest word / unit word) := by
  by_cases zero : word = 0
  · have none : shortest 0 = 0 := by decide +kernel
    rw [zero, none, Nat.cast_zero, zero_div]
    exact isShortest_zero
  have nonzero := writtenOut_ne_zero zero
  obtain ⟨count, coarsest⟩ := exists_coarsest finite nonzero
  have back := (neighbour?_eq_some coarsest.found).1
  have positive := unit_pos word
  have printed : |(shortest word : ℚ) / unit word - multiple word / 2 ^ depth| * unit word =
      |(shortest word : ℚ) - writtenOut word| := by
    rw [distance_mul_unit, div_mul_cancel₀ _ positive.ne']
  refine ⟨(readsBack_iff finite _).mp back, fun other fewer otherBack few => ?_,
    fun other otherBack asFew => ?_, fun other otherBack asFew near => ?_⟩
  · exact coarsest.significant.mono (coarsest.not_fewer finite nonzero otherBack few)
  · refine le_of_mul_le_mul_right ?_ positive
    rw [printed, distance_mul_unit]
    exact coarsest.nearest finite nonzero otherBack (asFew count coarsest.significant)
  · have near' := mul_le_mul_of_nonneg_right near positive.le
    rw [printed, distance_mul_unit] at near'
    rw [le_div_iff₀ positive]
    exact coarsest.le_of_near finite nonzero otherBack (asFew count coarsest.significant) near'

end Shortest

end Reckoner.Binary64
