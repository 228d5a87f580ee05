namespace Reckoner

/-- How much of a numeral has been read: digits, a point after them, the marker of an exponent, or
the sign or digits of the exponent. A numeral may break off after any of its parts. -/
inductive Numeral where
  | whole
  | fraction
  | marker
  | exponent
  deriving DecidableEq

namespace Numeral

def isMarker (c : Char) : Bool :=
  c = 'e' || c = 'E'

def isSign (c : Char) : Bool :=
  c = '+' || c = '-'

/-- What has been read when one more character belongs to the numeral. A sign belongs to it only
directly behind the marker, and a point only before the marker and after no other point. -/
def extend? : Numeral → Char → Option Numeral
  | whole, c =>
    if c.isDigit then some whole
    else if c = '.' then some fraction
    else if isMarker c then some marker
    else none
  | fraction, c => if c.isDigit then some fraction else if isMarker c then some marker else none
  | marker, c => if c.isDigit || isSign c then some exponent else none
  | exponent, c => if c.isDigit then some exponent else none

/-- Takes characters as long as they belong to the numeral, behind those `taken`, which are given
from the last. -/
def munch (numeral : Numeral) (taken : List Char) : List Char → List Char × List Char
  | [] => (taken.reverse, [])
  | c :: rest =>
    match numeral.extend? c with
    | some next => next.munch (c :: taken) rest
    | none => (taken.reverse, c :: rest)

theorem length_munch_le (numeral : Numeral) (taken text : List Char) :
    (numeral.munch taken text).2.length ≤ text.length := by
  induction text generalizing numeral taken with
  | nil => exact Nat.le_refl _
  | cons c rest ih =>
    unfold munch
    split
    · exact Nat.le_succ_of_le (ih _ _)
    · exact Nat.le_refl _

end Numeral

end Reckoner
