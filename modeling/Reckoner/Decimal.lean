namespace Reckoner

/-- A number written in base ten: `coefficient` times ten to the power `exponent`. -/
structure Decimal where
  coefficient : Nat
  exponent : Int
  deriving DecidableEq

namespace Decimal

/-- The number that a list of digits writes in base ten. -/
def valueOfDigits (digits : List Char) : Nat :=
  digits.foldl (fun value digit => 10 * value + (digit.toNat - '0'.toNat)) 0

/-- One digit or more, and nothing else. -/
def natural? (text : List Char) : Option Nat :=
  if text ≠ [] ∧ text.all Char.isDigit then some (valueOfDigits text) else none

def signedNatural? : List Char → Option Int
  | '-' :: digits => (natural? digits).map fun n => -(n : Int)
  | '+' :: digits => (natural? digits).map fun n => (n : Int)
  | digits => (natural? digits).map fun n => (n : Int)

/-- The power of ten that the end of a decimal writes. Without a marker it is zero; after a marker
it has one digit or more. -/
def exponent? : List Char → Option Int
  | [] => some 0
  | marker :: rest => if marker = 'e' ∨ marker = 'E' then signedNatural? rest else none

/-- Splits what follows the whole part into the digits behind a point and the rest. -/
def splitFraction : List Char → List Char × List Char
  | '.' :: rest => (rest.takeWhile Char.isDigit, rest.dropWhile Char.isDigit)
  | rest => ([], rest)

/-- Reads digits with at most one point among them, before or behind which there is a digit, and
then an exponent or nothing. -/
def read? (text : List Char) : Option Decimal :=
  let whole := text.takeWhile Char.isDigit
  let (fraction, rest) := splitFraction (text.dropWhile Char.isDigit)
  if whole = [] ∧ fraction = [] then none
  else
    (exponent? rest).map fun exponent =>
      ⟨valueOfDigits (whole ++ fraction), exponent - fraction.length⟩

def powerOfTen (exponent : Nat) : Nat :=
  Nat.pow 10 exponent

/-- The last `places` digits of a number, with leading zeros where it has fewer. -/
def lastDigits (places n : Nat) : List Char :=
  (Nat.toDigits 10 (powerOfTen places + n % powerOfTen places)).drop 1

def dropTrailingZeros (digits : List Char) : List Char :=
  (digits.reverse.dropWhile (· = '0')).reverse

/-- Writes `n` divided by ten to the power `places`, without an exponent. A point stands only before
digits that are not all zero, and zeros at the end of them are left out. -/
def positional (places n : Nat) : String :=
  let whole := String.ofList (Nat.toDigits 10 (n / powerOfTen places))
  match dropTrailingZeros (lastDigits places n) with
  | [] => whole
  | digits => whole ++ "." ++ String.ofList digits

end Decimal

end Reckoner
