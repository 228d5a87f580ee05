import Reckoner.Binary64.Reading

namespace Reckoner.Binary64

/-- How many digits behind the point a finite number has at most when it is written out. -/
def places (word : Nat) : Nat :=
  depth - scale word

/-- A finite number without its point, which stands before the last `places` digits. -/
def writtenOut (word : Nat) : Nat :=
  (significand word <<< (scale word - depth)) * Nat.pow 5 (places word)

/-- Whether `x`, with its point in the same place, reads back as the number. -/
def readsBack (word x : Nat) : Bool :=
  nearest x (Decimal.powerOfTen (places word)) = word

/-- The closer of the two neighbours of `x` on the grid of this step that reads back, if one does.
Of two that are equally close the upper one is taken. -/
def neighbour? (word x step : Nat) : Option Nat :=
  let low := x / step * step
  let high := low + step
  if readsBack word low && (x - low < high - x || !readsBack word high) then some low
  else if readsBack word high then some high
  else none

/-- The decimal that reads back as the number and has the fewest digits, at most 17, and of those
the nearest. Its point stands where that of the number does. -/
def shortest (word : Nat) : Nat :=
  let x := writtenOut word
  let length := (Nat.toDigits 10 x).length
  let grid digits := Decimal.powerOfTen (length - digits)
  ((List.range 17).findSome? fun i => neighbour? word x (grid (i + 1))).getD x

/-- The shortest decimal that reads back, never with an exponent. -/
def render (number : Float) : String :=
  let word := number.toBits.toNat
  let magnitude := word % signBit
  if infinity < magnitude then "NaN"
  else
    let sign := if signBit ≤ word then "-" else ""
    let text :=
      if magnitude = infinity then "inf"
      else Decimal.positional (places magnitude) (shortest magnitude)
    sign ++ text

end Reckoner.Binary64
