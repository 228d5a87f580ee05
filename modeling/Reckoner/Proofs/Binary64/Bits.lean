import Reckoner.Binary64.Reading
import Reckoner.Proofs.Binary64.Words

namespace Reckoner.Binary64

open Float.Model Float.Model.UnpackedFloat

def signOf (negative : Bool) : Sign :=
  if negative then .negative else .positive

/-- The fields of a word with its sign, put side by side. -/
def bits (negative : Bool) (word : Nat) : BitVec Format.binary64.numBits :=
  packComponents Format.binary64 (signOf negative) (BitVec.ofNat 11 (word / 2 ^ 52))
    (BitVec.ofNat 52 word)

theorem significand_pos {word : Nat} (nonzero : word ≠ 0) : 0 < significand word := by
  unfold significand
  rw [leadingBit_eq]
  split <;> omega

/-- A word with its sign as sign, significand and exponent. -/
def unpacked (negative : Bool) (word : Nat) : UnpackedFloat :=
  if word = infinity then .infinity (signOf negative)
  else if nonzero : word = 0 then .zero (signOf negative)
  else .finite (signOf negative) (significand word) (scale word - depth) (significand_pos nonzero)

theorem toNat_bits (negative : Bool) {word : Nat} (within : word < 2 ^ 63) :
    (bits negative word).toNat = (if negative then 2 ^ 63 else 0) + word := by
  unfold bits packComponents
  rw [BitVec.toNat_append, BitVec.toNat_append,
    ← Nat.shiftLeft_add_eq_or_of_lt (BitVec.ofNat 11 (word / 2 ^ 52)).isLt,
    ← Nat.shiftLeft_add_eq_or_of_lt (BitVec.ofNat 52 word).isLt,
    BitVec.toNat_ofNat, BitVec.toNat_ofNat, Nat.shiftLeft_eq, Nat.shiftLeft_eq]
  cases negative
  · have sign : (signOf false).toBitVec.toNat = 0 := by decide
    rw [sign, if_neg (by decide)]
    omega
  · have sign : (signOf true).toBitVec.toNat = 1 := by decide
    rw [sign, if_pos rfl]
    omega

theorem unpackSign_bits (negative : Bool) {word : Nat} (within : word < 2 ^ 63) :
    Sign.ofBitVec (unpackSign (bits negative word)) = signOf negative := by
  have sign : unpackSign (bits negative word) = (signOf negative).toBitVec := by
    refine BitVec.eq_of_toNat_eq ?_
    unfold unpackSign
    rw [BitVec.toNat_cast, BitVec.extractLsb_toNat, toNat_bits negative within,
      Nat.shiftRight_eq_div_pow]
    cases negative
    · have none : (signOf false).toBitVec.toNat = 0 := by decide
      rw [none, if_neg (by decide)]
      dsimp only [Format.binary64]
      omega
    · have one : (signOf true).toBitVec.toNat = 1 := by decide
      rw [one, if_pos rfl]
      dsimp only [Format.binary64]
      omega
  rw [sign]
  cases negative <;> rfl

theorem toNat_unpackExponent_bits (negative : Bool) {word : Nat} (within : word < 2 ^ 63) :
    (unpackExponent (bits negative word)).toNat = word / 2 ^ 52 := by
  have small : word / 2 ^ 52 < 2 ^ 11 := by omega
  unfold bits
  rw [unpackExponent_packComponents, BitVec.toNat_ofNat]
  exact Nat.mod_eq_of_lt small

theorem toNat_unpackMantissa_bits (negative : Bool) (word : Nat) :
    (unpackMantissa (bits negative word)).toNat = word % 2 ^ 52 := by
  unfold bits
  rw [unpackMantissa_packComponents, BitVec.toNat_ofNat]

theorem finite_congr {sign : Sign} {m n : Nat} {e f : Int} {p : 0 < m} {q : 0 < n} (mantissa : m = n)
    (exponent : e = f) : UnpackedFloat.finite sign m e p = .finite sign n f q := by
  subst mantissa exponent
  rfl

/-- The fields of a word are read as what they stand for. -/
theorem unpack_bits (negative : Bool) {word : Nat} (within : word ≤ infinity) :
    UnpackedFloat.unpack Format.binary64 (bits negative word) = unpacked negative word := by
  rw [infinity_eq] at within
  have size : word < 2 ^ 63 := by omega
  have sign := unpackSign_bits negative size
  have exponent := toNat_unpackExponent_bits negative size
  have mantissa := toNat_unpackMantissa_bits negative word
  have bias : (Format.binary64.exponentBias : Int) +
      (Format.binary64.mantissaBitsWithoutImplicit : Nat) = 1075 := by decide
  have ones : (-1#_ : BitVec Format.binary64.exponentBits).toNat = 2047 := by decide
  have zeros : (0#_ : BitVec Format.binary64.exponentBits).toNat = 0 := by decide
  have none : (0#_ : BitVec Format.binary64.mantissaBitsWithoutImplicit).toNat = 0 := by decide
  unfold UnpackedFloat.unpack unpacked
  dsimp only
  rw [sign]
  rw [infinity_eq]
  by_cases top : word = 2047 * 2 ^ 52
  · have full : unpackExponent (bits negative word) = -1#_ :=
      BitVec.eq_of_toNat_eq (by rw [exponent, ones]; omega)
    have empty : unpackMantissa (bits negative word) = 0#_ :=
      BitVec.eq_of_toNat_eq (by rw [mantissa, none]; omega)
    rw [if_pos full, if_pos empty, if_pos top]
  · have notFull : unpackExponent (bits negative word) ≠ -1#_ := by
      intro full
      rw [full, ones] at exponent
      omega
    rw [if_neg notFull, if_neg top]
    by_cases subnormal : word < 2 ^ 52
    · have least : unpackExponent (bits negative word) = 0#_ :=
        BitVec.eq_of_toNat_eq (by rw [exponent, zeros]; omega)
      have bits_eq : significand word = word := by
        unfold significand
        rw [leadingBit_eq, if_pos subnormal]
      have scale_eq : scale word = 0 := by
        unfold scale
        rw [leadingBit_eq]
        omega
      rw [if_pos least]
      by_cases zero : word = 0
      · have empty : unpackMantissa (bits negative word) = 0#_ :=
          BitVec.eq_of_toNat_eq (by rw [mantissa, none]; omega)
        rw [dif_pos empty, dif_pos zero]
      · have notEmpty : unpackMantissa (bits negative word) ≠ 0#_ := by
          intro empty
          rw [empty, none] at mantissa
          omega
        rw [dif_neg notEmpty, dif_neg zero]
        refine finite_congr ?_ ?_
        · rw [mantissa, bits_eq]
          omega
        · rw [exponent, scale_eq, bias, depth]
          omega
    · have notLeast : unpackExponent (bits negative word) ≠ 0#_ := by
        intro least
        rw [least, zeros] at exponent
        omega
      have nonzero : word ≠ 0 := by omega
      have scale_eq : (scale word : Int) = (word / 2 ^ 52 : Nat) - 1 := by
        unfold scale
        rw [leadingBit_eq]
        omega
      rw [if_neg notLeast, dif_neg nonzero]
      refine finite_congr ?_ ?_
      · unfold significand
        rw [leadingBit_eq, if_neg subnormal, BitVec.toNat_append,
          ← Nat.shiftLeft_add_eq_or_of_lt (unpackMantissa (bits negative word)).isLt, mantissa]
        rfl
      · rw [exponent, scale_eq, bias, depth]
        omega

/-- And what they stand for is written as these fields. -/
theorem pack_unpacked (negative : Bool) {word : Nat} (within : word ≤ infinity) :
    UnpackedFloat.pack Format.binary64 (unpacked negative word) = bits negative word := by
  unfold unpacked
  by_cases top : word = infinity
  · subst top
    rw [if_pos rfl]
    rfl
  · rw [if_neg top]
    by_cases zero : word = 0
    · subst zero
      rw [dif_pos rfl]
      rfl
    · rw [dif_neg zero]
      rw [infinity_eq] at within top
      have below := significand_lt word
      have composed := scale_add_significand word
      have leading := scale_eq_zero_or_le word
      have biased : ((scale word : Int) - depth + Format.binary64.exponentBias +
          (Format.binary64.mantissaBitsWithoutImplicit : Nat)).toNat = scale word + 1 := by
        have bias : Format.binary64.exponentBias = 1023 := by decide
        have stored : Format.binary64.mantissaBitsWithoutImplicit = 52 := rfl
        rw [bias, stored, depth]
        omega
      have inRange : ¬2 ^ Format.binary64.exponentBits ≤ scale word + 1 + 1 := by
        have ends : 2 ^ Format.binary64.exponentBits = 2048 := by decide
        rw [ends]
        omega
      have width : Format.binary64.mantissaBits = 53 := by decide
      unfold UnpackedFloat.pack bits
      dsimp only
      rw [biased, if_neg inRange, width]
      by_cases normal : 2 ^ 52 ≤ significand word
      · have full : (significand word).log2 + 1 = 53 := by
          rw [(Nat.log2_eq_iff (by omega)).mpr ⟨normal, below⟩]
        have exponent : word / 2 ^ 52 = scale word + 1 := by omega
        have mantissa : BitVec.ofNat 52 word = BitVec.ofNat 52 (significand word) := by
          refine BitVec.eq_of_toNat_eq ?_
          rw [BitVec.toNat_ofNat, BitVec.toNat_ofNat]
          omega
        rw [if_pos full, exponent, mantissa]
      · have short : (significand word).log2 + 1 ≠ 53 := by
          have small : (significand word).log2 < 52 :=
            (Nat.log2_lt (significand_pos zero).ne').mpr (Nat.lt_of_not_le normal)
          omega
        have least : scale word = 0 := leading.resolve_right normal
        have same : significand word = word := by omega
        have exponent : word / 2 ^ 52 = 0 := by omega
        rw [if_neg short, same, exponent]

theorem toBitVec_ofNat (negative : Bool) {word : Nat} (within : word < 2 ^ 63) :
    (UInt64.ofNat (if negative then signBit + word else word)).toBitVec = bits negative word := by
  have sign : signBit = 2 ^ 63 := by decide
  refine BitVec.eq_of_toNat_eq ?_
  rw [toNat_bits negative within, UInt64.toBitVec_ofNat', BitVec.toNat_ofNat, sign]
  cases negative
  · rw [if_neg (by decide), if_neg (by decide)]
    omega
  · rw [if_pos rfl, if_pos rfl]
    omega

theorem lt_of_le_infinity {word : Nat} (within : word ≤ infinity) : word < 2 ^ 63 :=
  within.trans_lt (by decide)

theorem toModel_ofMagnitude (negative : Bool) {word : Nat} (within : word ≤ infinity) :
    (ofMagnitude negative word).toModel = Float.Model.pack (unpacked negative word) := by
  have same := toBitVec_ofNat negative (lt_of_le_infinity within)
  unfold ofMagnitude Float.ofBits Float.Model.ofBits
  rw [same, unpack_bits negative within]

theorem unpack_pack (negative : Bool) {word : Nat} (within : word ≤ infinity) :
    (Float.Model.pack (unpacked negative word)).unpack = unpacked negative word := by
  unfold Float.Model.pack Float.Model.unpack
  dsimp only
  rw [pack_unpacked negative within, unpack_bits negative within]

theorem toNat_toBits_ofMagnitude (negative : Bool) {word : Nat} (within : word ≤ infinity) :
    (ofMagnitude negative word).toBits.toNat = (if negative then 2 ^ 63 else 0) + word := by
  unfold Float.toBits
  rw [toModel_ofMagnitude negative within, ← toNat_bits negative (lt_of_le_infinity within),
    ← pack_unpacked negative within]
  rfl

theorem neg_unpacked (negative : Bool) (word : Nat) :
    (unpacked negative word).neg = unpacked (!negative) word := by
  have sign : -(signOf negative) = signOf (!negative) := by cases negative <;> rfl
  unfold unpacked
  by_cases top : word = infinity
  · rw [if_pos top, if_pos top]
    exact congrArg UnpackedFloat.infinity sign
  · rw [if_neg top, if_neg top]
    by_cases zero : word = 0
    · rw [dif_pos zero, dif_pos zero]
      exact congrArg UnpackedFloat.zero sign
    · rw [dif_neg zero, dif_neg zero]
      exact congrArg (fun s => UnpackedFloat.finite s _ _ (significand_pos zero)) sign

/-- Negating a number changes its sign and nothing else. -/
theorem neg_ofMagnitude (negative : Bool) {word : Nat} (within : word ≤ infinity) :
    -ofMagnitude negative word = ofMagnitude (!negative) word := by
  have model : (-ofMagnitude negative word).toModel = (ofMagnitude (!negative) word).toModel := by
    rw [toModel_ofMagnitude _ within, ← neg_unpacked, ← unpack_pack negative within,
      ← toModel_ofMagnitude negative within]
    rfl
  exact congrArg Float.ofModel model

/-- Every number has its fields. -/
theorem exists_bits (x : Float) :
    ∃ negative word, word < 2 ^ 63 ∧ x.toBits.toBitVec = bits negative word ∧
      x.toBits.toNat = (if negative then 2 ^ 63 else 0) + word := by
  have size := x.toBits.toBitVec.isLt
  have value : x.toBits.toNat = x.toBits.toBitVec.toNat := rfl
  rw [value]
  by_cases small : x.toBits.toBitVec.toNat < 2 ^ 63
  · refine ⟨false, x.toBits.toBitVec.toNat, small, BitVec.eq_of_toNat_eq ?_, ?_⟩
    · rw [toNat_bits false small, if_neg (by decide), Nat.zero_add]
    · rw [if_neg (by decide), Nat.zero_add]
  · have rest : x.toBits.toBitVec.toNat - 2 ^ 63 < 2 ^ 63 := by omega
    refine ⟨true, x.toBits.toBitVec.toNat - 2 ^ 63, rest, BitVec.eq_of_toNat_eq ?_, ?_⟩
    · rw [toNat_bits true rest, if_pos rfl]
      omega
    · rw [if_pos rfl]
      omega

theorem exists_bits_of_positive {x : Float} (positive : x.toBits.toNat < 2 ^ 63) :
    ∃ word, word < 2 ^ 63 ∧ x.toBits.toBitVec = bits false word := by
  obtain ⟨negative, word, within, fields, value⟩ := exists_bits x
  cases negative with
  | false => exact ⟨word, within, fields⟩
  | true =>
    rw [value, if_pos rfl] at positive
    omega

/-- A word up to the infinity is finite or it is the infinity. -/
theorem status_unpacked (negative : Bool) (word : Nat) :
    ((unpacked negative word).isFinite = true ↔ word ≠ infinity) ∧
      ((unpacked negative word).isInf = true ↔ word = infinity) ∧
      (unpacked negative word).isNaN = false := by
  unfold unpacked
  by_cases top : word = infinity
  · rw [if_pos top]
    exact ⟨iff_of_false Bool.false_ne_true (not_not.mpr top), iff_of_true rfl top, rfl⟩
  · rw [if_neg top]
    by_cases zero : word = 0
    · rw [dif_pos zero]
      exact ⟨iff_of_true rfl top, iff_of_false Bool.false_ne_true top, rfl⟩
    · rw [dif_neg zero]
      exact ⟨iff_of_true rfl top, iff_of_false Bool.false_ne_true top, rfl⟩

/-- Words past the infinity have its exponent, and a significand besides. -/
theorem unpack_bits_past {negative : Bool} {word : Nat} (within : word < 2 ^ 63)
    (past : infinity < word) :
    UnpackedFloat.unpack Format.binary64 (bits negative word) = .notANumber := by
  have exponent := toNat_unpackExponent_bits negative within
  have mantissa := toNat_unpackMantissa_bits negative word
  have ones : (-1#_ : BitVec Format.binary64.exponentBits).toNat = 2047 := by decide
  have none : (0#_ : BitVec Format.binary64.mantissaBitsWithoutImplicit).toNat = 0 := by decide
  rw [infinity_eq] at past
  have full : unpackExponent (bits negative word) = -1#_ := by
    refine BitVec.eq_of_toNat_eq ?_
    rw [exponent, ones]
    omega
  have notEmpty : unpackMantissa (bits negative word) ≠ 0#_ := by
    intro empty
    rw [empty, none] at mantissa
    omega
  unfold UnpackedFloat.unpack
  dsimp only
  rw [if_pos full, if_neg notEmpty]

section Status

variable {x : Float} {negative : Bool} {word : Nat} (within : word < 2 ^ 63)
  (fields : x.toBits.toBitVec = bits negative word)
include within fields

theorem status :
    (x.isFinite = true ↔ word < infinity) ∧ (x.isInf = true ↔ word = infinity) ∧
      (x.isNaN = true ↔ infinity < word) := by
  have finite : x.isFinite = (UnpackedFloat.unpack Format.binary64 x.toBits.toBitVec).isFinite := rfl
  have infinite : x.isInf = (UnpackedFloat.unpack Format.binary64 x.toBits.toBitVec).isInf := rfl
  have none : x.isNaN = (UnpackedFloat.unpack Format.binary64 x.toBits.toBitVec).isNaN := rfl
  rw [finite, infinite, none, fields]
  by_cases number : word ≤ infinity
  · obtain ⟨finite, infinite, number'⟩ := status_unpacked negative word
    rw [unpack_bits negative number, finite, infinite, number']
    exact ⟨by omega, Iff.rfl, iff_of_false Bool.false_ne_true (by omega)⟩
  · rw [unpack_bits_past within (Nat.lt_of_not_le number)]
    exact ⟨iff_of_false Bool.false_ne_true (by omega), iff_of_false Bool.false_ne_true (by omega),
      iff_of_true rfl (by omega)⟩

theorem isFinite_iff : x.isFinite = true ↔ word < infinity :=
  (status within fields).1

theorem isInf_iff : x.isInf = true ↔ word = infinity :=
  (status within fields).2.1

theorem isNaN_iff : x.isNaN = true ↔ infinity < word :=
  (status within fields).2.2

end Status

theorem eq_ofMagnitude {x : Float} {negative : Bool} {word : Nat} (within : word ≤ infinity)
    (fields : x.toBits.toBitVec = bits negative word) : x = ofMagnitude negative word := by
  have model : x.toModel = (ofMagnitude negative word).toModel := by
    rw [toModel_ofMagnitude negative within]
    obtain ⟨⟨stored, valid⟩⟩ := x
    have same : stored = UInt64.ofBitVec (UnpackedFloat.pack Format.binary64
        (unpacked negative word)) := by
      rw [pack_unpacked negative within, ← fields]
      rfl
    subst same
    rfl
  exact congrArg Float.ofModel model

theorem toBitVec_toBits_ofMagnitude (negative : Bool) {word : Nat} (within : word ≤ infinity) :
    (ofMagnitude negative word).toBits.toBitVec = bits negative word := by
  refine BitVec.eq_of_toNat_eq ?_
  rw [toNat_bits negative (lt_of_le_infinity within)]
  exact toNat_toBits_ofMagnitude negative within

theorem isFinite_ofMagnitude (negative : Bool) {word : Nat} (finite : word < infinity) :
    (ofMagnitude negative word).isFinite = true :=
  (isFinite_iff (lt_of_le_infinity finite.le)
    (toBitVec_toBits_ofMagnitude negative finite.le)).mpr finite

theorem isInf_infinity (negative : Bool) : (ofMagnitude negative infinity).isInf = true :=
  (isInf_iff (lt_of_le_infinity le_rfl) (toBitVec_toBits_ofMagnitude negative le_rfl)).mpr rfl

theorem isNaN_ofMagnitude (negative : Bool) {word : Nat} (within : word ≤ infinity) :
    (ofMagnitude negative word).isNaN = false := by
  have fields := toBitVec_toBits_ofMagnitude negative within
  exact Bool.eq_false_iff.mpr
    (mt (isNaN_iff (lt_of_le_infinity within) fields).mp (Nat.not_lt.mpr within))

/-- The finite numbers are those of the words below the infinity, with either sign. -/
theorem exists_ofMagnitude {x : Float} (finite : x.isFinite = true) :
    ∃ negative word, word < infinity ∧ x = ofMagnitude negative word := by
  obtain ⟨negative, word, within, fields, _⟩ := exists_bits x
  have below := (isFinite_iff within fields).mp finite
  exact ⟨negative, word, below, eq_ofMagnitude below.le fields⟩

end Reckoner.Binary64
