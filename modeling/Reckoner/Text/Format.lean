import Reckoner.Text.Ranges

namespace Reckoner.Text

/-- The characters of the Unicode category `Cf`. -/
def formatRanges : List (Nat × Nat) :=
  [(0x00AD, 0x00AD), (0x0600, 0x0605), (0x061C, 0x061C), (0x06DD, 0x06DD), (0x070F, 0x070F),
    (0x0890, 0x0891), (0x08E2, 0x08E2), (0x180E, 0x180E), (0x200B, 0x200F), (0x202A, 0x202E),
    (0x2060, 0x2064), (0x2066, 0x206F), (0xFEFF, 0xFEFF), (0xFFF9, 0xFFFB), (0x110BD, 0x110BD),
    (0x110CD, 0x110CD), (0x13430, 0x1343F), (0x1BCA0, 0x1BCA3), (0x1D173, 0x1D17A),
    (0xE0001, 0xE0001), (0xE0020, 0xE007F)]

theorem formatRanges_ascending : areAscending 0x7F formatRanges = true := by
  decide

/-- Format characters steer how a text is laid out and are not seen themselves. -/
def isFormat (c : Char) : Bool :=
  inRanges c.toNat formatRanges

/-- The characters of the Unicode category `Co`. -/
def privateUseRanges : List (Nat × Nat) :=
  [(0xE000, 0xF8FF), (0xF0000, 0xFFFFD), (0x100000, 0x10FFFD)]

theorem privateUseRanges_ascending : areAscending 0x7F privateUseRanges = true := by
  decide

/-- What a private use character looks like is not agreed. -/
def isPrivateUse (c : Char) : Bool :=
  inRanges c.toNat privateUseRanges

end Reckoner.Text
