import Reckoner.Text.Ranges

namespace Reckoner.Text

/-- The characters with the Unicode property `White_Space`. -/
def blankRanges : List (Nat × Nat) :=
  [(0x09, 0x0D), (0x20, 0x20), (0x85, 0x85), (0xA0, 0xA0), (0x1680, 0x1680), (0x2000, 0x200A),
    (0x2028, 0x2029), (0x202F, 0x202F), (0x205F, 0x205F), (0x3000, 0x3000)]

theorem blankRanges_ascending : areAscending 0 blankRanges = true := by
  decide

/-- Blank characters separate tokens and are part of none. -/
def isBlank (c : Char) : Bool :=
  inRanges c.toNat blankRanges

theorem isBlank_of_isWhitespace {c : Char} (white : c.isWhitespace = true) : isBlank c = true := by
  simp only [Char.isWhitespace, Bool.or_eq_true, decide_eq_true_eq] at white
  rcases white with ((rfl | rfl) | rfl) | rfl <;> decide

end Reckoner.Text
