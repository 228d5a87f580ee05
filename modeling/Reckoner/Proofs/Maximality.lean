import Reckoner.Proofs.Binary64.Spelling
import Reckoner.Proofs.Partition
import Reckoner.Proofs.Respelling
import Reckoner.Proofs.Separation
import Reckoner.Proofs.Viability

namespace Reckoner

namespace NumeralText

/-- The numeral stands in the source behind this many bytes, and no longer one does. -/
def IsLongestAt (numeral : NumeralText) (source : String) (offset : Nat) : Prop :=
  ∃ before behind, source.toList = before ++ (numeral.chars ++ behind) ∧ offset = Text.size before ∧
    ∀ other : NumeralText, other.chars <+: numeral.chars ++ behind →
      other.chars.length ≤ numeral.chars.length

/-- There is a marker, and no digit behind it or behind its sign. -/
def IsUnfinished (numeral : NumeralText) : Prop :=
  ∃ part ∈ numeral.exponent, part.digits.chars = []

theorem isUnfinished_iff (numeral : NumeralText) : numeral.IsUnfinished ↔ ¬numeral.IsFinished := by
  simp [IsUnfinished, IsFinished]

/-- The greedy choice is the longest one: a numeral is over exactly where no longer one stands. -/
theorem longest_iff (numeral : NumeralText) (behind : List Char) :
    (∀ other : NumeralText, other.chars <+: numeral.chars ++ behind →
      other.chars.length ≤ numeral.chars.length) ↔
      (Token.number numeral.lexeme).EndsBefore behind := by
  simp only [Token.EndsBefore, numeral.toList_lexeme]
  constructor
  · intro longest last takes c first
    obtain ⟨rest, rfl⟩ := List.head?_eq_some_iff.mp first
    refine Option.eq_none_iff_forall_ne_some.mpr fun next extended => ?_
    obtain ⟨longer, more, left, chars, rfl, _⟩ := takes.exists_longer extended rest
    have part : longer.chars <+: numeral.chars ++ c :: (more ++ left) :=
      ⟨left, by rw [chars, List.append_assoc, List.cons_append]⟩
    have length := longest longer part
    rw [chars, List.length_append, List.length_cons] at length
    omega
  · intro ends other part
    refine Nat.le_of_not_lt fun longer => ?_
    obtain ⟨more, split⟩ := List.prefix_of_prefix_length_le
      (List.prefix_append numeral.chars behind) part longer.le
    cases more with
    | nil =>
      rw [List.append_nil] at split
      exact absurd longer (by rw [split]; exact lt_irrefl _)
    | cons c more =>
      obtain ⟨final, takes⟩ := other.takes_chars
      rw [← split] at takes part
      obtain ⟨last, front, back⟩ := takes.split
      obtain ⟨rest, goesOn⟩ := (List.prefix_append_right_inj numeral.chars).mp part
      cases back with
      | next extended _ =>
        rw [ends last front c (by rw [← goesOn]; rfl)] at extended
        cases extended

end NumeralText

/-- What begins within an item, but not where the item does, begins within a token. -/
theorem Item.isToken_of_within {item : Item} {inner more : List Char} {c : Char}
    (within : item.chars = inner ++ c :: more) (later : inner ≠ []) :
    item.isToken = true ∧ item.offset < item.offset + Text.size inner ∧
      item.offset + Text.size inner < item.stop := by
  have front := Text.size_pos later
  have back := c.utf8Size_pos
  refine ⟨?_, by omega, ?_⟩
  · cases item with
    | token offset token => rfl
    | unrecognized found =>
      rw [chars_unrecognized] at within
      have length := congrArg List.length within
      simp only [List.length_cons, List.length_nil, List.length_append] at length
      exact absurd (List.length_eq_zero_iff.mp (by omega)) later
  · rw [stop, within, Text.size_append, Text.size_cons]
    omega

namespace Place

variable {numeral : NumeralText}

/-- A numeral that is over where it ends is found, unless it begins within a token. -/
theorem mem_items_of_endsBefore (place : Place) {before behind : List Char}
    (split : place.unread = before ++ (numeral.chars ++ behind))
    (ends : (Token.number numeral.lexeme).EndsBefore behind)
    (outside : ∀ item ∈ place.items, item.isToken = true →
      ¬(item.offset < place.offset + Text.size before ∧
        place.offset + Text.size before < item.stop)) :
    .token (place.offset + Text.size before) (.number numeral.lexeme) ∈ place.items := by
  obtain ⟨digit, digits, chars, isDigit⟩ := numeral.exists_first
  have inked : ¬Text.isBlank digit = true :=
    Bool.eq_false_iff.mp (Item.isBlank_eq_false_of_isDigit isDigit)
  induction place using Place.induction generalizing before with
  | blanks place blanks => exact absurd (blanks digit (by simp [split, chars])) inked
  | next place item next comes ih =>
    obtain ⟨gap, blanks, split', here⟩ := comes.split
    have whole := split.symm.trans split'
    rw [chars, List.cons_append] at whole
    rw [items_of_comesFirst comes] at outside
    obtain ⟨first, later⟩ := List.forall_mem_cons.mp outside
    rcases Text.stands_in_either whole with ⟨more, rfl⟩ | ⟨inner, rfl, rest⟩
    · exact absurd (blanks digit (List.mem_append_right before (List.mem_cons_self ..))) inked
    rw [Text.size_append, ← Nat.add_assoc, ← here] at first later ⊢
    rcases Text.stands_in_either rest.symm with ⟨more, within⟩ | ⟨inner, rfl, left⟩
    · by_cases begins : inner = []
      · -- The numeral begins where the item does, and so it is the item.
        subst begins
        have number : (Item.token item.offset (.number numeral.lexeme)).ComesFirst place
            ⟨item.offset + Text.size numeral.chars, behind⟩ := by
          refine ⟨.token (.number numeral), ⟨gap, blanks, ?_, here⟩, ends, ?_⟩
          · rw [split, List.append_nil, Item.chars_token, Token.lexeme, numeral.toList_lexeme]
          · rw [Item.stop, Item.chars_token, Token.lexeme, numeral.toList_lexeme, Item.offset]
        rw [Text.size_nil, Nat.add_zero, items_of_comesFirst number]
        exact List.mem_cons_self ..
      · obtain ⟨isToken, around⟩ := Item.isToken_of_within within begins
        exact absurd around (first isToken)
    · have stop := comes.stop_eq
      rw [Item.stop] at stop
      rw [Text.size_append, ← Nat.add_assoc, ← stop] at later ⊢
      rw [items_of_comesFirst comes]
      refine List.mem_cons_of_mem item (ih ?_ later)
      rw [left, chars, List.cons_append]

/-- No item of a text begins within another. -/
theorem not_within_items (place : Place) :
    ∀ item ∈ place.items, ∀ other ∈ place.items,
      ¬(other.offset < item.offset ∧ item.offset < other.stop) := by
  intro item inside other inside'
  obtain ⟨front, back, split⟩ := List.append_of_mem inside
  have ordered := place.pairwise_items.2
  rw [split, List.pairwise_append, List.pairwise_cons] at ordered
  obtain ⟨_, ⟨later, _⟩, between⟩ := ordered
  rw [split] at inside'
  have extent : item.offset ≤ item.stop := Nat.le_add_right ..
  rcases List.mem_append.mp inside' with earlier | behind
  · have ends := between other earlier item (List.mem_cons_self ..)
    omega
  · rcases List.mem_cons.mp behind with rfl | behind
    · omega
    · have begins := later other behind
      omega

end Place

namespace Scanner

variable {lenient : Bool} {source : String}

theorem mem_drain_iff {item : Item} :
    item ∈ (ofString lenient source).drain ↔
      item ∈ Place.items ⟨0, source.toList⟩ ∧ (ofString lenient source).catches item = true := by
  rw [drain_eq, List.mem_filter]
  rfl

/-- The numbers that are found are the longest numerals of the source, except for those that begin
within another token. -/
theorem number_mem_drain_iff {offset : Nat} {lexeme : String} :
    .token offset (.number lexeme) ∈ (ofString lenient source).drain ↔
      (∃ numeral : NumeralText, lexeme = numeral.lexeme ∧ numeral.IsLongestAt source offset) ∧
        ∀ item ∈ (ofString lenient source).drain, item.isToken = true →
          ¬(item.offset < offset ∧ offset < item.stop) := by
  constructor
  · intro found
    have inside := (mem_drain_iff.mp found).1
    refine ⟨?_, fun item found' _ => Place.not_within_items _ _ inside item
      (mem_drain_iff.mp found').1⟩
    obtain ⟨front, back, split⟩ := List.append_of_mem inside
    obtain ⟨before, next, chars, here, ends, _⟩ := Place.exists_cut _ split
    cases Place.isSpelled_items _ _ inside with
    | token spelled =>
      cases spelled with
      | number numeral =>
        rw [Item.chars_token, Token.lexeme, numeral.toList_lexeme] at chars
        exact ⟨numeral, rfl, before, next.unread, chars, here.trans (Nat.zero_add _),
          (numeral.longest_iff next.unread).mpr ends⟩
  · rintro ⟨⟨numeral, rfl, before, behind, chars, rfl, longest⟩, outside⟩
    have ends := (numeral.longest_iff behind).mp longest
    refine mem_drain_iff.mpr ⟨?_, rfl⟩
    rw [← Nat.zero_add (Text.size before)]
    refine Place.mem_items_of_endsBefore ⟨0, source.toList⟩ chars ends fun item inside isToken => ?_
    rw [Nat.zero_add]
    exact outside item (mem_drain_iff.mpr ⟨inside, by rw [catches, isToken, Bool.true_or]⟩) isToken

/-- A scan that goes well gives the tokens that are found one after the other. -/
theorem drain_of_scan {tokens : List Token} (scanned : scan lenient source = .ok tokens) :
    (ofString lenient source).drain.filterMap Item.token? = tokens := by
  rw [← tokens_of_scan source scanned, drain_eq, List.filterMap_filter]
  refine List.filterMap_congr fun item _ => ?_
  cases item with
  | token offset found => rfl
  | unrecognized found => exact ite_self _

end Scanner

end Reckoner
