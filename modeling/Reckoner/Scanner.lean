import Reckoner.Scanner.Item

namespace Reckoner

/-- Where scanning a source has come to. A lenient scanner passes over unrecognized characters. The
token that was found last is kept as the current one, and the token before it too. -/
structure Scanner where
  place : Place
  lenient : Bool
  current : Option Token
  last : Option Token

/-- The items that were passed, the one that scanning stopped at, which is the last of them, and the
scanner behind it. Scanning that stopped at no item has come to the end of the source. -/
structure Passage where
  passed : List Item
  stop : Option Item
  scanner : Scanner

namespace Scanner

def ofString (lenient : Bool) (source : String) : Scanner :=
  ⟨⟨0, source.toList⟩, lenient, none, none⟩

/-- Changes how unrecognized characters are treated from here on. -/
def setLenient (lenient : Bool) (scanner : Scanner) : Scanner :=
  { scanner with lenient }

/-- Moves behind an item. An unrecognized character leaves the tokens that are kept as they are. -/
def moveBehind (scanner : Scanner) (item : Item) (place : Place) : Scanner :=
  match item.token? with
  | some token => { scanner with place, current := some token, last := scanner.current }
  | none => { scanner with place }

/-- Passes items up to and including the first that `stops` holds of. The items passed so far are
given from the latest. -/
def passTo (stops : Item → Bool) (passed : List Item) (scanner : Scanner) : Passage :=
  match _ : Item.first? scanner.place.offset scanner.place.unread with
  | none => ⟨passed.reverse, none, scanner⟩
  | some (item, place) =>
    if stops item then ⟨(item :: passed).reverse, some item, scanner.moveBehind item place⟩
    else passTo stops (item :: passed) (scanner.moveBehind item place)
termination_by scanner.place.unread.length
decreasing_by
  have shorter := Item.length_first?_lt ‹_›
  unfold moveBehind
  split <;> exact shorter

/-- Whether scanning has to stop at an unrecognized character. -/
def rejects (scanner : Scanner) (item : Item) : Bool :=
  !scanner.lenient && item.unrecognized?.isSome

/-- Passes one token, or one character that is rejected. -/
def next (scanner : Scanner) : Passage :=
  scanner.passTo (fun item => item.token?.isSome || scanner.rejects item) []

/-- Passes all that is left, or what there is up to the first character that is rejected. -/
def rest (scanner : Scanner) : Passage :=
  scanner.passTo scanner.rejects []

end Scanner

/-- The tokens among the items that were passed. -/
def Passage.found (passage : Passage) : List Token :=
  passage.passed.filterMap Item.token?

/-- The tokens that were passed, unless scanning stopped at a character. -/
def Passage.tokens (passage : Passage) : Except Unrecognized (List Token) :=
  match passage.stop.bind Item.unrecognized? with
  | some unrecognized => .error unrecognized
  | none => .ok passage.found

/-- The tokens of a source. -/
def scan (lenient : Bool) (source : String) : Except Unrecognized (List Token) :=
  (Scanner.ofString lenient source).rest.tokens

end Reckoner
