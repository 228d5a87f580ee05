import Reckoner.Proofs.Positional

namespace Reckoner

namespace Decimal

section Digits

variable {digits others : List Char}

theorem toDigits_digit {c : Char} (digit : c.isDigit = true) :
    Nat.toDigits 10 (c.toNat - '0'.toNat) = [c] := by
  have bounds : 48 ≤ c.toNat ∧ c.toNat ≤ 57 := Char.isDigit_iff_toNat.mp digit
  have zero : '0'.toNat = 48 := rfl
  have small : c.toNat - '0'.toNat < 10 := by omega
  have code : (Nat.digitChar (c.toNat - '0'.toNat)).toNat = c.toNat := by
    rw [Nat.toNat_digitChar_of_lt_ten small]
    omega
  rw [Nat.toDigits_of_lt_base small, Char.toNat_inj.mp code]

/-- Digits that do not begin with a zero are those that their value is written with. -/
theorem toDigits_ofDigitChars (isDigit : ∀ c ∈ digits, c.isDigit = true) (begun : digits ≠ [])
    (leading : digits.head? = some '0' → digits = ['0']) :
    Nat.toDigits 10 (Nat.ofDigitChars 10 digits 0) = digits := by
  induction digits using List.reverseRecOn with
  | nil => exact absurd rfl begun
  | append_singleton front d ih =>
    have digit : d.isDigit = true := isDigit d (List.mem_append_right _ (List.mem_cons_self ..))
    have bounds : 48 ≤ d.toNat ∧ d.toNat ≤ 57 := Char.isDigit_iff_toNat.mp digit
    have zero : '0'.toNat = 48 := rfl
    rw [Nat.ofDigitChars_append, Nat.ofDigitChars_cons, Nat.ofDigitChars_nil]
    by_cases alone : front = []
    · rw [alone, Nat.ofDigitChars_nil, Nat.mul_zero, Nat.zero_add, toDigits_digit digit]
      rfl
    · have unzeroed : front.head? ≠ some '0' := by
        intro first
        have whole := leading (by rw [List.head?_append, first]; rfl)
        have length := congrArg List.length whole
        rw [List.length_append] at length
        exact alone (List.length_eq_zero_iff.mp (by simpa using length))
      have value := ih (fun c inside => isDigit c (List.mem_append_left _ inside)) alone
        fun first => absurd first unzeroed
      have positive : 0 < Nat.ofDigitChars 10 front 0 := by
        refine Nat.pos_of_ne_zero fun none => unzeroed ?_
        rw [← value, none]
        rfl
      rw [← Nat.toDigits_append_toDigits (by decide) positive (by omega), value,
        toDigits_digit digit]

/-- Only zero is written with a zero in front. -/
theorem toDigits_leading (n : Nat) (zero : (Nat.toDigits 10 n).head? = some '0') :
    Nat.toDigits 10 n = ['0'] := by
  induction n using Nat.strongRecOn with
  | ind n ih =>
    rw [Nat.toDigits_eq_if (by decide)] at zero ⊢
    by_cases small : n < 10
    · rw [if_pos small] at zero ⊢
      rw [Option.some.inj zero]
    · rw [if_neg small, List.head?_append_of_ne_nil _ Nat.toDigits_ne_nil] at zero
      have front := ih (n / 10) (by omega) zero
      have value := Nat.ofDigitChars_ten_toDigits (n := n / 10)
      have none : Nat.ofDigitChars 10 ['0'] 0 = 0 := rfl
      rw [front, none] at value
      omega

/-- As many digits with the same value are the same digits. -/
theorem eq_of_ofDigitChars_eq (isDigit : ∀ c ∈ digits, c.isDigit = true)
    (isDigit' : ∀ c ∈ others, c.isDigit = true) (length : digits.length = others.length)
    (value : Nat.ofDigitChars 10 digits 0 = Nat.ofDigitChars 10 others 0) : digits = others := by
  -- Behind a one they are the digits that a number is written with.
  have behind_one {digits : List Char} (isDigit : ∀ c ∈ digits, c.isDigit = true) :
      Nat.toDigits 10 (10 ^ digits.length + Nat.ofDigitChars 10 digits 0) = '1' :: digits := by
    have written : Nat.toDigits 10 (Nat.ofDigitChars 10 ('1' :: digits) 0) = '1' :: digits :=
      toDigits_ofDigitChars (List.forall_mem_cons.mpr ⟨rfl, isDigit⟩) (List.cons_ne_nil _ _) nofun
    have one : 10 * 0 + ('1'.toNat - '0'.toNat) = 1 := rfl
    rwa [Nat.ofDigitChars_cons, Nat.ofDigitChars_eq_ofDigitChars_zero, one, Nat.mul_one] at written
  have first := behind_one isDigit
  rw [length, value, behind_one isDigit'] at first
  exact (List.cons.inj first).2.symm

/-- Digits behind a point that do not end with a zero are told by what they amount to. -/
theorem eq_of_ratio_eq (isDigit : ∀ c ∈ digits, c.isDigit = true)
    (isDigit' : ∀ c ∈ others, c.isDigit = true) (trailing : digits.getLast? ≠ some '0')
    (trailing' : others.getLast? ≠ some '0')
    (ratio : (Nat.ofDigitChars 10 digits 0 : ℚ) / 10 ^ digits.length =
      Nat.ofDigitChars 10 others 0 / 10 ^ others.length) : digits = others := by
  wlog short : digits.length ≤ others.length generalizing digits others
  · exact (this isDigit' isDigit trailing' trailing ratio.symm (Nat.le_of_not_le short)).symm
  obtain ⟨more, longer⟩ := Nat.exists_eq_add_of_le short
  -- The shorter ones are filled up with zeros, of which there can be none.
  have filled : Nat.ofDigitChars 10 (digits ++ List.replicate more '0') 0 =
      Nat.ofDigitChars 10 others 0 := by
    rw [longer, pow_add, div_eq_div_iff (by positivity) (by positivity)] at ratio
    rw [Nat.ofDigitChars_append, Nat.ofDigitChars_replicate_zero]
    have scaled : (10 : ℚ) ^ digits.length * (10 ^ more * Nat.ofDigitChars 10 digits 0) =
        10 ^ digits.length * Nat.ofDigitChars 10 others 0 := by
      linarith
    exact_mod_cast mul_left_cancel₀ (by positivity) scaled
  have same : digits ++ List.replicate more '0' = others := by
    refine eq_of_ofDigitChars_eq ?_ isDigit' ?_ filled
    · refine List.forall_mem_append.mpr ⟨isDigit, fun c inside => ?_⟩
      rw [List.eq_of_mem_replicate inside]
      rfl
    · rw [List.length_append, List.length_replicate, longer]
  cases more with
  | zero => rwa [List.replicate_zero, List.append_nil] at same
  | succ more =>
    rw [← same, List.replicate_succ', ← List.append_assoc, List.getLast?_concat] at trailing'
    exact absurd rfl trailing'

theorem getLast?_dropTrailingZeros (digits : List Char) :
    (dropTrailingZeros digits).getLast? ≠ some '0' := by
  intro zero
  rw [dropTrailingZeros, List.getLast?_reverse] at zero
  have kept := List.head?_dropWhile_not (· = '0') digits.reverse
  rw [zero] at kept
  exact absurd rfl (of_decide_eq_false kept)

end Digits

end Decimal

open Decimal

namespace Literal

/-- The literal has no exponent, and none of its digits, nor the point, could be left out and still
leave it the same number. -/
structure IsNeat (literal : Literal) : Prop where
  positional : literal.exponent = none
  /-- No zeros stand before other digits. -/
  leading : literal.whole.chars.head? = some '0' → literal.whole.chars = ['0']
  /-- The point stands before a digit. -/
  pointed : ∀ digits ∈ literal.fraction, digits.chars ≠ []
  /-- Behind the point the last digit is no zero. -/
  trailing : ∀ digits ∈ literal.fraction, digits.chars.getLast? ≠ some '0'

namespace IsNeat

variable {literal other : Literal}

theorem value_eq (neat : literal.IsNeat) :
    literal.value = literal.whole.value + literal.fractionValue := by
  rw [NumeralText.value, NumeralText.exponentValue, neat.positional, Option.elim_none, zpow_zero,
    mul_one]

theorem chars_eq (neat : literal.IsNeat) : literal.chars = literal.whole.chars ++
    if literal.fractionDigits = [] then [] else '.' :: literal.fractionDigits := by
  have pointed := neat.pointed
  rw [NumeralText.chars, NumeralText.exponentChars, neat.positional, Option.elim_none,
    List.append_nil, NumeralText.fractionChars, NumeralText.fractionDigits]
  cases part : literal.fraction with
  | none => rfl
  | some digits => exact congrArg (_ ++ ·) (if_neg (pointed digits part)).symm

theorem getLast?_fractionDigits (neat : literal.IsNeat) :
    literal.fractionDigits.getLast? ≠ some '0' := by
  have trailing := neat.trailing
  unfold NumeralText.fractionDigits
  cases part : literal.fraction with
  | none => exact nofun
  | some digits => exact trailing digits part

end IsNeat

theorem isDigit_fractionDigits (literal : Literal) :
    ∀ c ∈ literal.fractionDigits, c.isDigit = true := by
  unfold NumeralText.fractionDigits
  cases literal.fraction with
  | none => exact List.forall_mem_nil _
  | some digits => exact digits.isDigit

theorem fractionValue_bounds (literal : Literal) :
    0 ≤ literal.fractionValue ∧ literal.fractionValue < 1 := by
  have below := ofDigitChars_lt literal.isDigit_fractionDigits
  rw [NumeralText.fractionValue_eq, div_lt_one (by positivity)]
  exact ⟨by positivity, by exact_mod_cast below⟩

/-- A number has one neat literal. -/
theorem IsNeat.lexeme_eq {literal other : Literal} (neat : literal.IsNeat) (neat' : other.IsNeat)
    (same : literal.value = other.value) : literal.lexeme = other.lexeme := by
  obtain ⟨nonneg, small⟩ := literal.fractionValue_bounds
  obtain ⟨nonneg', small'⟩ := other.fractionValue_bounds
  rw [neat.value_eq, neat'.value_eq] at same
  have whole : literal.whole.value = other.whole.value := by
    have upper : (literal.whole.value : ℚ) < other.whole.value + 1 := by linarith
    have lower : (other.whole.value : ℚ) < literal.whole.value + 1 := by linarith
    norm_cast at upper lower
    omega
  have digits : literal.whole.chars = other.whole.chars := by
    rw [← toDigits_ofDigitChars literal.whole.isDigit literal.begun neat.leading,
      ← toDigits_ofDigitChars other.whole.isDigit other.begun neat'.leading]
    exact congrArg (Nat.toDigits 10) whole
  have fraction : literal.fractionDigits = other.fractionDigits := by
    refine eq_of_ratio_eq literal.isDigit_fractionDigits other.isDigit_fractionDigits
      neat.getLast?_fractionDigits neat'.getLast?_fractionDigits ?_
    rw [whole] at same
    rw [← NumeralText.fractionValue_eq, ← NumeralText.fractionValue_eq]
    exact add_left_cancel same
  rw [NumeralText.lexeme, NumeralText.lexeme, neat.chars_eq, neat'.chars_eq, digits, fraction]

end Literal

theorem of_mem_fractionText {digits : List Char} {isDigit : ∀ c ∈ digits, c.isDigit = true}
    {part : Digits} (inside : part ∈ fractionText digits isDigit) :
    part.chars = digits ∧ digits ≠ [] := by
  unfold fractionText at inside
  split at inside
  · cases inside
  · rename_i some
    cases inside
    exact ⟨rfl, some⟩

theorem isNeat_positionalText (places n : Nat) : (positionalText places n).IsNeat where
  positional := rfl
  leading := toDigits_leading (n / 10 ^ places)
  pointed part inside := by
    obtain ⟨chars, some⟩ := of_mem_fractionText inside
    rwa [chars]
  trailing part inside := by
    rw [(of_mem_fractionText inside).1]
    exact getLast?_dropTrailingZeros _

end Reckoner
