import Reckoner.Proofs.Grammar
import Reckoner.Proofs.Numeral
import Reckoner.Scanner

namespace Reckoner

/-- The items that are found one after the other on the way from one place to another. -/
inductive Place.Reach : Place → List Item → Place → Prop
  | start {place} : Reach place [] place
  | next {place behind last item items} :
      Item.first? place.offset place.unread = some (item, behind) → Reach behind items last →
      Reach place (item :: items) last

theorem Place.Reach.append {first second third : Place} {items more : List Item}
    (reach : Place.Reach first items second) (further : Place.Reach second more third) :
    Place.Reach first (items ++ more) third := by
  induction reach with
  | start => exact further
  | next found _ ih => exact .next found (ih further)

namespace Scanner

@[simp] theorem moveBehind_place (scanner : Scanner) (item : Item) (place : Place) :
    (scanner.moveBehind item place).place = place := by
  unfold moveBehind
  split <;> rfl

section Passing

variable {stops : Item → Bool} {items : List Item} {scanner : Scanner} {last : Place}

theorem passTo_next {item : Item} {behind : Place}
    (found : Item.first? scanner.place.offset scanner.place.unread = some (item, behind))
    (passed : List Item) :
    scanner.passTo stops passed =
      if stops item then ⟨(item :: passed).reverse, some item, scanner.moveBehind item behind⟩
      else (scanner.moveBehind item behind).passTo stops (item :: passed) := by
  rw [passTo]
  split
  · rename_i none
    rw [found] at none
    cases none
  · rename_i other next some
    rw [found] at some
    cases some
    rfl

theorem passTo_end (ended : Item.first? scanner.place.offset scanner.place.unread = none)
    (passed : List Item) : scanner.passTo stops passed = ⟨passed.reverse, none, scanner⟩ := by
  rw [passTo]
  split
  · rfl
  · rename_i some
    rw [ended] at some
    cases some

/-- Items that scanning does not stop at are passed one after the other. -/
theorem passTo_of_reach (scanner : Scanner) (reach : Place.Reach scanner.place items last)
    (onward : ∀ item ∈ items, stops item = false) (passed : List Item) :
    ∃ behind : Scanner, behind.place = last ∧
      scanner.passTo stops passed = behind.passTo stops (items.reverse ++ passed) := by
  generalize here : scanner.place = place at reach
  induction reach generalizing scanner passed with
  | start => exact ⟨scanner, here, rfl⟩
  | @next place behind last item items found _ ih =>
    subst here
    have goesOn := onward item (List.mem_cons_self ..)
    obtain ⟨final, there, passes⟩ := ih (scanner.moveBehind item behind)
      (fun other inside => onward other (List.mem_cons_of_mem item inside)) (item :: passed)
      (moveBehind_place scanner item behind)
    refine ⟨final, there, ?_⟩
    rw [passTo_next found, goesOn, if_neg Bool.false_ne_true, passes, List.reverse_cons,
      List.append_assoc, List.singleton_append]

end Passing

end Scanner

section Scan

variable {lenient : Bool} {source : String} {items : List Item} {last : Place}

/-- A source whose items are passed up to the end has the tokens among them. -/
theorem scan_eq_ok_of_reach (reach : Place.Reach ⟨0, source.toList⟩ items last)
    (onward : ∀ item ∈ items, lenient = true ∨ item.unrecognized? = none)
    (ended : Item.first? last.offset last.unread = none) :
    scan lenient source = .ok (items.filterMap Item.token?) := by
  have passes : ∀ item ∈ items, (Scanner.ofString lenient source).rejects item = false := by
    intro item inside
    rcases onward item inside with rfl | token
    · rfl
    · rw [Scanner.rejects, token, Option.isSome_none, Bool.and_false]
  obtain ⟨behind, rfl, passed⟩ := Scanner.passTo_of_reach
    (Scanner.ofString lenient source) reach passes []
  unfold scan Scanner.rest
  rw [passed, Scanner.passTo_end ended, List.append_nil, List.reverse_reverse]
  rfl

/-- A strict scan fails at the first character that begins no token. -/
theorem scan_eq_error_of_reach {found : Unrecognized} {behind : Place}
    (reach : Place.Reach ⟨0, source.toList⟩ items last)
    (onward : ∀ item ∈ items, item.unrecognized? = none)
    (rejected : Item.first? last.offset last.unread = some (.unrecognized found, behind)) :
    scan false source = .error found := by
  have passes : ∀ item ∈ items, (Scanner.ofString false source).rejects item = false := by
    intro item inside
    rw [Scanner.rejects, onward item inside, Option.isSome_none, Bool.and_false]
  obtain ⟨before, rfl, passed⟩ := Scanner.passTo_of_reach
    (Scanner.ofString false source) reach passes []
  unfold scan Scanner.rest
  rw [passed, Scanner.passTo_next rejected]
  rfl

end Scan

namespace Item

theorem first?_operator (offset : Nat) (op : Operation) (behind : List Char) :
    first? offset (op.symbol :: behind) =
      some (.token offset (.operator (String.singleton op.symbol)),
        ⟨offset + op.symbol.utf8Size, behind⟩) := by
  cases op <;> rfl

theorem isBlank_eq_false_of_isDigit {c : Char} (digit : c.isDigit = true) :
    Text.isBlank c = false := by
  have bounds : 48 ≤ c.toNat ∧ c.toNat ≤ 57 := Char.isDigit_iff_toNat.mp digit
  simp only [Text.isBlank, Text.blankRanges, Text.inRanges, Bool.and_eq_false_iff,
    Bool.or_eq_false_iff, decide_eq_false_iff_not]
  omega

/-- A letter begins no token. -/
theorem first?_letter (offset : Nat) {c : Char} (letter : c.isAlpha = true) (behind : List Char) :
    first? offset (c :: behind) =
      some (.unrecognized ⟨c, offset⟩, ⟨offset + c.utf8Size, behind⟩) := by
  have bounds : 65 ≤ c.toNat ∧ c.toNat ≤ 90 ∨ 97 ≤ c.toNat ∧ c.toNat ≤ 122 := by
    rcases Bool.or_eq_true_iff.mp letter with upper | lower
    · exact Or.inl (of_decide_eq_true upper)
    · have ends := Bool.and_eq_true_iff.mp lower
      exact Or.inr ⟨of_decide_eq_true ends.1, of_decide_eq_true ends.2⟩
  have differs (d : Char) (symbol : d.toNat < 65) : c ≠ d := by
    rintro rfl
    omega
  have blank : Text.isBlank c = false := by
    simp only [Text.isBlank, Text.blankRanges, Text.inRanges, Bool.and_eq_false_iff,
      Bool.or_eq_false_iff, decide_eq_false_iff_not]
    omega
  have digit : ¬c.isDigit = true := by
    intro digit
    have bounds : 48 ≤ c.toNat ∧ c.toNat ≤ 57 := Char.isDigit_iff_toNat.mp digit
    omega
  have symbol : Operation.all.any (·.symbol = c) = false := by
    refine List.any_eq_false.mpr fun op _ same => ?_
    have small : op.symbol.toNat < 65 := by cases op <;> decide
    exact differs op.symbol small (of_decide_eq_true same).symm
  rw [first?, blank, if_neg Bool.false_ne_true, beginning, if_neg digit, single,
    if_neg (differs '(' (by decide)), if_neg (differs ')' (by decide)), symbol,
    if_neg Bool.false_ne_true]

/-- A numeral is one token as a whole, if what stands behind it does not go on with it. -/
theorem first?_numeral (offset : Nat) (text : NumeralText) {behind : List Char}
    (ends : ∀ last, Numeral.Takes .whole text.chars last →
      ∀ c ∈ behind.head?, last.extend? c = none) :
    first? offset (text.chars ++ behind) =
      some (.token offset (.number text.lexeme), ⟨offset + text.lexeme.utf8ByteSize, behind⟩) := by
  obtain ⟨last, takes⟩ := text.takes_chars
  have stops := ends last takes
  unfold NumeralText.lexeme
  obtain ⟨first, rest, split, digit⟩ := text.exists_first
  rw [split] at takes ⊢
  cases takes with
  | next extended takes =>
    have begun : Numeral.whole.extend? first = some .whole := Numeral.extend?_digit digit .whole
    rw [begun] at extended
    cases extended
    have munched := takes.munch_append [first] stops
    rw [List.cons_append, first?, isBlank_eq_false_of_isDigit digit]
    simp only [beginning, digit, munched, if_true]
    rfl

end Item

section Signed

variable (negative lenient : Bool) {source : String}

/-- A minus sign in front of a text, or nothing. -/
def signChars : List Char :=
  if negative then ['-'] else []

theorem toList_signed (text : String) :
    ((if negative then "-" else "") ++ text).toList = signChars negative ++ text.toList := by
  rw [String.toList_append]
  cases negative with
  | false => exact congrArg (· ++ _) String.toList_ofList
  | true => exact congrArg (· ++ _) String.toList_ofList

/-- A minus sign is a token of its own, whatever stands behind it. -/
theorem reach_sign (behind : List Char) :
    ∃ items offset, Place.Reach ⟨0, signChars negative ++ behind⟩ items ⟨offset, behind⟩ ∧
      (∀ item ∈ items, item.unrecognized? = none) ∧
      items.filterMap Item.token? = signTokens negative ∧
      offset = (String.ofList (signChars negative)).utf8ByteSize := by
  cases negative with
  | false => exact ⟨[], 0, .start, nofun, rfl, rfl⟩
  | true =>
    have sign := Item.first?_operator 0 .sub behind
    refine ⟨[.token 0 (.operator "-")], 1, .next sign .start, fun item inside => ?_, rfl, rfl⟩
    rw [List.mem_singleton.mp inside]
    rfl

/-- A source that is a numeral is one token behind its sign. -/
theorem scan_numeral (text : NumeralText) (chars : source.toList = signChars negative ++ text.chars) :
    scan lenient source = .ok (signTokens negative ++ [.number text.lexeme]) := by
  obtain ⟨items, offset, sign, recognized, tokens, _⟩ := reach_sign negative text.chars
  have found : Item.first? offset (text.chars ++ []) = _ :=
    Item.first?_numeral offset text fun _ _ _ inside => nomatch inside
  rw [List.append_nil] at found
  have reach := sign.append (.next found .start)
  rw [← chars] at reach
  rw [scan_eq_ok_of_reach reach (fun item inside => ?_) rfl, List.filterMap_append, tokens]
  · rfl
  · rcases List.mem_append.mp inside with before | last
    · exact Or.inr (recognized item before)
    · rw [List.mem_singleton.mp last]
      exact Or.inr rfl

theorem reach_letters {letters : List Char} (areLetters : ∀ c ∈ letters, c.isAlpha = true)
    (offset : Nat) :
    ∃ items last, Place.Reach ⟨offset, letters⟩ items ⟨last, []⟩ ∧
      items.filterMap Item.token? = [] := by
  induction letters generalizing offset with
  | nil => exact ⟨[], offset, .start, rfl⟩
  | cons c letters ih =>
    have found := Item.first?_letter offset (areLetters c (List.mem_cons_self ..)) letters
    obtain ⟨items, last, reach, none⟩ :=
      ih (fun d inside => areLetters d (List.mem_cons_of_mem c inside)) (offset + c.utf8Size)
    exact ⟨_ :: items, last, .next found reach, none⟩

/-- Strict scanning of a word stops at its first letter. -/
theorem scan_letters_strict {first : Char} {letters : List Char} (letter : first.isAlpha = true)
    (chars : source.toList = signChars negative ++ first :: letters) :
    scan false source =
      .error ⟨first, (String.ofList (signChars negative)).utf8ByteSize⟩ := by
  obtain ⟨items, offset, sign, recognized, _, rfl⟩ := reach_sign negative (first :: letters)
  rw [← chars] at sign
  exact scan_eq_error_of_reach sign recognized (Item.first?_letter _ letter letters)

/-- Lenient scanning leaves nothing of a word but its sign. -/
theorem scan_letters_lenient {letters : List Char} (areLetters : ∀ c ∈ letters, c.isAlpha = true)
    (chars : source.toList = signChars negative ++ letters) :
    scan true source = .ok (signTokens negative) := by
  obtain ⟨items, offset, sign, _, tokens, _⟩ := reach_sign negative letters
  obtain ⟨more, last, reach, none⟩ := reach_letters areLetters offset
  have whole := sign.append reach
  rw [← chars] at whole
  rw [scan_eq_ok_of_reach whole (fun _ _ => Or.inl rfl) rfl, List.filterMap_append, tokens, none,
    List.append_nil]

end Signed

end Reckoner
