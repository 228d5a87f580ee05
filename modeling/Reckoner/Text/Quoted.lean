import Reckoner.Text.Blank
import Reckoner.Text.Extender
import Reckoner.Text.Format
import Reckoner.Text.Ignorable
import Reckoner.Text.Unassigned

namespace Reckoner.Text

/-- The digits of a number in base sixteen, in lower case and without leading zeros. -/
def hexadecimal (n : Nat) : String :=
  String.ofList (Nat.toDigits 16 n)

/-- Control characters have no shape of their own to be shown by. -/
def isControl (c : Char) : Bool :=
  c.toNat < 0x20 || (0x7F ≤ c.toNat && c.toNat < 0xA0)

/-- The two halfwidth sound marks of the katakana extend the character before them, but are drawn
in a place of their own. -/
def isHalfwidthSoundMark (c : Char) : Bool :=
  c.toNat = 0xFF9E || c.toNat = 0xFF9F

/-- Whether a reader would see the character as it is: it has a shape, and not one that is drawn
onto the quote or the character before it. Of the blanks only the space counts as seen. -/
def isShown (c : Char) : Bool :=
  !isControl c && (c = ' ' || !isBlank c) && !isFormat c && !isIgnorable c && !isPrivateUse c &&
    !isUnassigned c && (!isExtender c || isHalfwidthSoundMark c)

/-- How one character stands between double quotes. The quote and the backslash are escaped by a
backslash; tab, carriage return, line feed and the null character have a letter of their own; all
others that are not shown are given by number. -/
def quotedChar (c : Char) : String :=
  if c = '"' then "\\\""
  else if c = '\\' then "\\\\"
  else if c = '\t' then "\\t"
  else if c = '\r' then "\\r"
  else if c = '\n' then "\\n"
  else if c = '\x00' then "\\0"
  else if isShown c then String.singleton c
  else "\\u\x7b" ++ hexadecimal c.toNat ++ "\x7d"

def quoted (text : String) : String :=
  "\"" ++ String.join (text.toList.map quotedChar) ++ "\""

end Reckoner.Text
