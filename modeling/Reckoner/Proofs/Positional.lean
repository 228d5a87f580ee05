import Reckoner.Proofs.Literal

namespace Reckoner

namespace Decimal

theorem powerOfTen_eq (exponent : Nat) : powerOfTen exponent = 10 ^ exponent :=
  rfl

theorem isDigit_toDigits {n : Nat} : ∀ c ∈ Nat.toDigits 10 n, c.isDigit = true :=
  fun _ inside => Nat.isDigit_of_mem_toDigits (by decide) (by decide) inside

theorem ofDigitChars_lt {digits : List Char} (isDigit : ∀ c ∈ digits, c.isDigit = true) :
    Nat.ofDigitChars 10 digits 0 < 10 ^ digits.length := by
  induction digits with
  | nil => decide
  | cons c digits ih =>
    have below := ih fun d inside => isDigit d (List.mem_cons_of_mem c inside)
    have bounds : 48 ≤ c.toNat ∧ c.toNat ≤ 57 :=
      Char.isDigit_iff_toNat.mp (isDigit c (List.mem_cons_self ..))
    have digit : c.toNat - '0'.toNat ≤ 9 := by
      have zero : '0'.toNat = 48 := rfl
      omega
    rw [Nat.ofDigitChars_cons, Nat.ofDigitChars_eq_ofDigitChars_zero, Nat.mul_zero, Nat.zero_add,
      List.length_cons, Nat.pow_succ]
    calc 10 ^ digits.length * (c.toNat - '0'.toNat) + Nat.ofDigitChars 10 digits 0
        < 10 ^ digits.length * 9 + 10 ^ digits.length :=
          Nat.add_lt_add_of_le_of_lt (Nat.mul_le_mul_left _ digit) below
      _ = 10 ^ digits.length * 10 := by ring

/-- The one in front keeps the zeros that the digits behind it begin with. -/
theorem toDigits_behind_one {places r : Nat} (small : r < 10 ^ places) :
    ∃ first digits, Nat.toDigits 10 (10 ^ places + r) = first :: digits ∧
      digits.length = places ∧ Nat.ofDigitChars 10 digits 0 = r := by
  have value := Nat.ofDigitChars_ten_toDigits (n := 10 ^ places + r)
  have isDigit := isDigit_toDigits (n := 10 ^ places + r)
  have long : places < (Nat.toDigits 10 (10 ^ places + r)).length := by
    have bound := ofDigitChars_lt isDigit
    rw [value] at bound
    have power := (Nat.le_add_right _ _).trans_lt bound
    exact (Nat.pow_lt_pow_iff_right (by decide)).mp power
  have short : (Nat.toDigits 10 (10 ^ places + r)).length ≤ places + 1 := by
    refine (Nat.length_toDigits_le_iff (by decide) (Nat.succ_pos places)).mpr ?_
    rw [Nat.pow_succ]
    omega
  cases digits : Nat.toDigits 10 (10 ^ places + r) with
  | nil => exact absurd digits Nat.toDigits_ne_nil
  | cons first rest =>
    rw [digits] at value isDigit long short
    rw [List.length_cons] at long short
    have length : rest.length = places := by omega
    have below := ofDigitChars_lt fun d inside => isDigit d (List.mem_cons_of_mem first inside)
    rw [Nat.ofDigitChars_cons, Nat.ofDigitChars_eq_ofDigitChars_zero, Nat.mul_zero, Nat.zero_add,
      length] at value
    rw [length] at below
    have last := congrArg (· % 10 ^ places) value
    simp only [Nat.mul_add_mod, Nat.add_mod_left, Nat.mod_eq_of_lt below, Nat.mod_eq_of_lt small] at last
    exact ⟨first, rest, rfl, length, last⟩

theorem lastDigits_spec (places n : Nat) :
    (∀ c ∈ lastDigits places n, c.isDigit = true) ∧ (lastDigits places n).length = places ∧
      Nat.ofDigitChars 10 (lastDigits places n) 0 = n % 10 ^ places := by
  have small := Nat.mod_lt n (Nat.pow_pos (n := places) (by decide : 0 < 10))
  obtain ⟨first, digits, chars, length, value⟩ := toDigits_behind_one small
  have isDigit := isDigit_toDigits (n := 10 ^ places + n % 10 ^ places)
  have behind : lastDigits places n = digits := by
    rw [lastDigits, powerOfTen_eq, chars]
    rfl
  rw [chars] at isDigit
  rw [behind]
  exact ⟨fun c inside => isDigit c (List.mem_cons_of_mem first inside), length, value⟩

theorem dropTrailingZeros_append (digits : List Char) :
    ∃ count, digits = dropTrailingZeros digits ++ List.replicate count '0' := by
  have split := List.takeWhile_append_dropWhile (p := (· = '0')) (l := digits.reverse)
  have zeros : digits.reverse.takeWhile (· = '0') =
      List.replicate (digits.reverse.takeWhile (· = '0')).length '0' :=
    List.eq_replicate_iff.mpr
      ⟨rfl, fun c inside => of_decide_eq_true (List.all_eq_true.mp List.all_takeWhile c inside)⟩
  refine ⟨(digits.reverse.takeWhile (· = '0')).length, ?_⟩
  have reversed := congrArg List.reverse split
  rw [List.reverse_append, List.reverse_reverse, zeros, List.reverse_replicate] at reversed
  exact reversed.symm

theorem isDigit_fraction (places n : Nat) :
    ∀ c ∈ dropTrailingZeros (lastDigits places n), c.isDigit = true := by
  obtain ⟨isDigit, _⟩ := lastDigits_spec places n
  obtain ⟨count, zeros⟩ := dropTrailingZeros_append (lastDigits places n)
  intro c inside
  refine isDigit c ?_
  rw [zeros]
  exact List.mem_append_left _ inside

end Decimal

open Decimal

/-- The digits behind the point, if there are any. -/
def fractionText (digits : List Char) (isDigit : ∀ c ∈ digits, c.isDigit = true) : Option Digits :=
  if digits = [] then none else some ⟨digits, isDigit⟩

/-- The parts of a number that is written without an exponent. -/
def positionalText (places n : Nat) : Literal where
  whole := ⟨Nat.toDigits 10 (n / 10 ^ places), isDigit_toDigits⟩
  fraction := fractionText (dropTrailingZeros (lastDigits places n)) (isDigit_fraction places n)
  exponent := none
  begun := Nat.toDigits_ne_nil
  complete := nofun

theorem fraction_positionalText (places n : Nat) :
    (positionalText places n).fractionDigits = dropTrailingZeros (lastDigits places n) ∧
      (positionalText places n).fractionChars =
        if dropTrailingZeros (lastDigits places n) = [] then []
        else '.' :: dropTrailingZeros (lastDigits places n) := by
  unfold NumeralText.fractionDigits NumeralText.fractionChars positionalText fractionText
  by_cases none : dropTrailingZeros (lastDigits places n) = []
  · rw [if_pos none, if_pos none, none]
    exact ⟨rfl, rfl⟩
  · rw [if_neg none, if_neg none]
    exact ⟨rfl, rfl⟩

theorem positional_eq_lexeme (places n : Nat) :
    positional places n = (positionalText places n).lexeme := by
  have fraction := (fraction_positionalText places n).2
  have chars : (positionalText places n).chars =
      Nat.toDigits 10 (n / 10 ^ places) ++ ((positionalText places n).fractionChars ++ []) := rfl
  rw [← String.toList_inj, NumeralText.toList_lexeme, chars, fraction, List.append_nil]
  unfold positional
  cases dropTrailingZeros (lastDigits places n) with
  | nil => exact String.toList_ofList.trans (List.append_nil _).symm
  | cons c rest =>
    dsimp only
    have digits : (String.ofList (c :: rest)).toList = c :: rest := String.toList_ofList
    rw [String.toList_append, String.toList_append, digits, String.toList_ofList,
      List.append_assoc, if_neg (List.cons_ne_nil c rest)]
    rfl

/-- Neither the place of the point nor the zeros that are left out change the number. -/
theorem value_positionalText (places n : Nat) : (positionalText places n).value = n / 10 ^ places := by
  obtain ⟨_, length, value⟩ := lastDigits_spec places n
  obtain ⟨count, zeros⟩ := dropTrailingZeros_append (lastDigits places n)
  have fraction := (positionalText places n).fractionValue_eq
  rw [(fraction_positionalText places n).1] at fraction
  have whole : (positionalText places n).whole.value = n / 10 ^ places :=
    Nat.ofDigitChars_ten_toDigits
  have exponent : (positionalText places n).exponentValue = 0 := rfl
  generalize dropTrailingZeros (lastDigits places n) = digits at zeros fraction
  rw [zeros, List.length_append, List.length_replicate] at length
  rw [zeros, Nat.ofDigitChars_append, Nat.ofDigitChars_replicate_zero] at value
  have split := Nat.div_add_mod n (10 ^ places)
  rw [← value] at split
  generalize n / 10 ^ places = high at whole split
  rw [NumeralText.value, exponent, zpow_zero, mul_one, fraction, whole, ← split, ← length, pow_add]
  push_cast
  field_simp
  ring

end Reckoner
