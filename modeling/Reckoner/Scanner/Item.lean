import Reckoner.Operation
import Reckoner.Token
import Reckoner.Scanner.Numeral

namespace Reckoner

/-- A character that begins no token, and the number of bytes before it. -/
structure Unrecognized where
  char : Char
  offset : Nat
  deriving DecidableEq

def Unrecognized.message (unrecognized : Unrecognized) : String :=
  s!"Unrecognized character `{unrecognized.char}` at offset {unrecognized.offset}"

/-- What stands in a source between its blanks. -/
inductive Item where
  | token (offset : Nat) (found : Token)
  | unrecognized (found : Unrecognized)
  deriving DecidableEq

/-- A place in a source: the number of bytes before it, and the characters from there on. -/
structure Place where
  offset : Nat
  unread : List Char

namespace Item

def token? : Item → Option Token
  | token _ found => some found
  | unrecognized _ => none

def unrecognized? : Item → Option Unrecognized
  | token _ _ => none
  | unrecognized found => some found

/-- The item of a character that is neither blank nor a digit. -/
def single (offset : Nat) (c : Char) : Item :=
  if c = '(' then token offset .opening
  else if c = ')' then token offset .closing
  else if Operation.all.any (·.symbol = c) then token offset (.operator (String.singleton c))
  else unrecognized ⟨c, offset⟩

/-- The item that begins with `c`, which is not blank, and the place behind it. -/
def beginning (offset : Nat) (c : Char) (rest : List Char) : Item × Place :=
  if c.isDigit then
    let (lexeme, unread) := Numeral.whole.munch [c] rest
    let lexeme := String.ofList lexeme
    (token offset (.number lexeme), ⟨offset + lexeme.utf8ByteSize, unread⟩)
  else (single offset c, ⟨offset + c.utf8Size, rest⟩)

/-- The first item from a place on, and the place behind it. -/
def first? (offset : Nat) : List Char → Option (Item × Place)
  | [] => none
  | c :: rest =>
    if Text.isBlank c then first? (offset + c.utf8Size) rest else some (beginning offset c rest)

theorem length_beginning_le (offset : Nat) (c : Char) (rest : List Char) :
    (beginning offset c rest).2.unread.length ≤ rest.length := by
  unfold beginning
  split
  · exact Numeral.length_munch_le _ _ _
  · exact Nat.le_refl _

/-- Each item takes at least one character. -/
theorem length_first?_lt {offset : Nat} {text : List Char} {item : Item} {place : Place}
    (found : first? offset text = some (item, place)) : place.unread.length < text.length := by
  induction text generalizing offset with
  | nil => cases found
  | cons c rest ih =>
    unfold first? at found
    split at found
    · exact Nat.lt_succ_of_lt (ih found)
    · have shorter := length_beginning_le offset c rest
      rw [Option.some.inj found] at shorter
      exact Nat.lt_succ_of_le shorter

end Item

end Reckoner
