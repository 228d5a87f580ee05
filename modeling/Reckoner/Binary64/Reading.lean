import Reckoner.Binary64.Rounding

namespace Reckoner.Binary64

/-- The word of the value that is not a number. -/
def notANumber : Nat := infinity + leadingBit / 2

/-- The words that a number may be written as instead of digits, in small letters. -/
def namedWords : List (String × Nat) :=
  [("inf", infinity), ("infinity", infinity), ("nan", notANumber)]

/-- Reads a number without its sign: a name, in letters of either case, or a decimal. -/
def readMagnitude? (text : List Char) : Option Nat :=
  match namedWords.find? (·.1.toList = text.map Char.toLower) with
  | some named => some named.2
  | none => (Decimal.read? text).map ofDecimal

def signBit : Nat := 1 <<< 63

/-- The number with this magnitude and sign. -/
def ofMagnitude (negative : Bool) (magnitude : Nat) : Float :=
  Float.ofBits (UInt64.ofNat (if negative then signBit + magnitude else magnitude))

def read? (text : String) : Option Float :=
  match text.toList with
  | '-' :: rest => (readMagnitude? rest).map (ofMagnitude true)
  | '+' :: rest => (readMagnitude? rest).map (ofMagnitude false)
  | rest => (readMagnitude? rest).map (ofMagnitude false)

end Reckoner.Binary64
