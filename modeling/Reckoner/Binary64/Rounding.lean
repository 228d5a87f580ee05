import Reckoner.Decimal

namespace Reckoner.Binary64

/-- The smallest positive number is two to the power minus this, and every finite number is a whole
multiple of it. -/
def depth : Nat := 1074

/-- The leading bit of the significand of a normal number. It is not stored, so that the bits from
here on hold the scale. -/
def leadingBit : Nat := 1 <<< 52

/-- The word of the infinity. The words below it are those of the finite numbers, in order. Words
are taken without their sign here. -/
def infinity : Nat := 2047 * leadingBit

def significand (word : Nat) : Nat :=
  if word < leadingBit then word else leadingBit + word % leadingBit

def scale (word : Nat) : Nat :=
  word / leadingBit - 1

/-- A finite number as a multiple of the smallest positive one. -/
def multiple (word : Nat) : Nat :=
  significand word <<< scale word

/-- The whole number nearest to a quotient. Halves go to the even neighbour. -/
def roundQuotient (num den : Nat) : Nat :=
  let floor := num / den
  let rest := num % den
  if 2 * rest < den then floor
  else if den < 2 * rest then floor + 1
  else floor + floor % 2

/-- The word nearest to a quotient. The scale is the least one at which the significand has no more
than 53 bits, and a significand that is rounded up to 54 bits carries into the scale. Past the
largest finite number comes the infinity. -/
def nearest (num den : Nat) : Nat :=
  let scale := ((num <<< depth) / den).log2 - 52
  min infinity (scale * leadingBit + roundQuotient (num <<< depth) (den <<< scale))

/-- The word nearest to a decimal. Exponents that put it out of reach, whatever its digits, are
answered before the power of ten is formed: a coefficient of `b` bits is below ten to the power `b`,
and half the smallest positive number is above ten to the power -324. -/
def ofDecimal (decimal : Decimal) : Nat :=
  match decimal.exponent with
  | .ofNat up =>
    if decimal.coefficient = 0 then 0
    else if 309 ≤ up then infinity
    else nearest (decimal.coefficient * Decimal.powerOfTen up) 1
  | .negSucc pred =>
    let down := pred + 1
    if decimal.coefficient.log2 + 1 + 324 ≤ down then 0
    else nearest decimal.coefficient (Decimal.powerOfTen down)

end Reckoner.Binary64
