import Reckoner.Proofs.Munching

namespace Reckoner

/-- The number of bytes that characters take. -/
def Text.size (chars : List Char) : Nat :=
  (String.ofList chars).utf8ByteSize

namespace Text

theorem isBlank_space : isBlank ' ' = true :=
  isBlank_of_isWhitespace rfl

@[simp] theorem size_nil : size [] = 0 :=
  rfl

@[simp] theorem size_append (before behind : List Char) :
    size (before ++ behind) = size before + size behind := by
  simp only [size, String.ofList_append, String.utf8ByteSize_append]

@[simp] theorem size_cons (c : Char) (chars : List Char) :
    size (c :: chars) = c.utf8Size + size chars := by
  have single : size [c] = c.utf8Size := by
    simp only [size, ← String.singleton_eq_ofList, String.utf8ByteSize_singleton]
  rw [← List.singleton_append, size_append, single]

@[simp] theorem size_toList (text : String) : size text.toList = text.utf8ByteSize := by
  simp only [size, String.ofList_toList]

theorem size_pos {chars : List Char} (some : chars ≠ []) : 0 < size chars := by
  cases chars with
  | nil => exact absurd rfl some
  | cons c rest =>
    have positive := c.utf8Size_pos
    simp only [size_cons]
    omega

end Text

/-- A number is a numeral, and an operator is the symbol of an operation. -/
inductive Token.IsSpelled : Token → Prop
  | number (text : NumeralText) : IsSpelled (.number text.lexeme)
  | operator (op : Operation) : IsSpelled (.operator (String.singleton op.symbol))
  | opening : IsSpelled .opening
  | closing : IsSpelled .closing

/-- Whether a token is over where a text goes on. Only a numeral can be continued. -/
def Token.EndsBefore (behind : List Char) : Token → Prop
  | number lexeme =>
    ∀ last, Numeral.Takes .whole lexeme.toList last → ∀ c ∈ behind.head?, last.extend? c = none
  | _ => True

/-- A character that begins no token and does not separate them either. -/
structure IsForeign (c : Char) : Prop where
  inked : Text.isBlank c = false
  noDigit : c.isDigit = false
  noOpening : c ≠ '('
  noClosing : c ≠ ')'
  noSymbol : ∀ op : Operation, op.symbol ≠ c

namespace Item

def isToken (item : Item) : Bool :=
  item.token?.isSome

theorem isSome_unrecognized? (item : Item) : item.unrecognized?.isSome = !item.isToken := by
  cases item <;> rfl

def offset : Item → Nat
  | token offset _ => offset
  | unrecognized found => found.offset

/-- The part of the source that an item stands for. -/
def text : Item → String
  | token _ found => found.lexeme
  | unrecognized found => String.singleton found.char

def chars (item : Item) : List Char :=
  item.text.toList

@[simp] theorem chars_token (offset : Nat) (found : Token) :
    (token offset found).chars = found.lexeme.toList :=
  rfl

@[simp] theorem chars_unrecognized (found : Unrecognized) :
    (unrecognized found).chars = [found.char] :=
  String.toList_singleton found.char

/-- The number of bytes before the end of an item. -/
def stop (item : Item) : Nat :=
  item.offset + Text.size item.chars

inductive IsSpelled : Item → Prop
  | token {offset found} : found.IsSpelled → IsSpelled (token offset found)
  | unrecognized {found} : IsForeign found.char → IsSpelled (unrecognized found)

def EndsBefore (behind : List Char) : Item → Prop
  | token _ found => found.EndsBefore behind
  | unrecognized _ => True

/-- An item comes first at a place when there are only blanks before it and it does not go on at the
place behind it. -/
structure ComesFirst (place : Place) (item : Item) (behind : Place) : Prop where
  isSpelled : item.IsSpelled
  split : ∃ gap, (∀ c ∈ gap, Text.isBlank c = true) ∧
    place.unread = gap ++ (item.chars ++ behind.unread) ∧
    item.offset = place.offset + Text.size gap
  ends : item.EndsBefore behind.unread
  stop_eq : behind.offset = item.stop

end Item

theorem Token.IsSpelled.lexeme_ne_nil {token : Token} (spelled : token.IsSpelled) :
    token.lexeme.toList ≠ [] := by
  cases spelled with
  | number text =>
    obtain ⟨first, rest, chars, _⟩ := text.exists_first
    simp [Token.lexeme, chars]
  | operator op => simp [Token.lexeme]
  | opening => simp [Token.lexeme]
  | closing => simp [Token.lexeme]

namespace Item

theorem IsSpelled.chars_ne_nil {item : Item} (spelled : item.IsSpelled) : item.chars ≠ [] := by
  cases spelled with
  | token spelled => exact spelled.lexeme_ne_nil
  | unrecognized _ => simp

theorem IsSpelled.offset_lt_stop {item : Item} (spelled : item.IsSpelled) :
    item.offset < item.stop := by
  have positive := Text.size_pos spelled.chars_ne_nil
  unfold stop
  omega

theorem ComesFirst.offset_le {place behind : Place} {item : Item}
    (first : item.ComesFirst place behind) : place.offset ≤ item.offset := by
  obtain ⟨gap, _, _, here⟩ := first.split
  omega

section Single

variable (offset : Nat) {c : Char}

/-- Every character that is neither blank nor a digit is an item of its own. -/
theorem single_isSpelled (inked : Text.isBlank c = false) (noDigit : c.isDigit = false) :
    (single offset c).IsSpelled ∧ (single offset c).chars = [c] ∧
      (single offset c).offset = offset := by
  unfold single
  split
  · subst c
    exact ⟨.token .opening, String.toList_ofList, rfl⟩
  split
  · subst c
    exact ⟨.token .closing, String.toList_ofList, rfl⟩
  split
  · rename_i named
    obtain ⟨op, _, symbol⟩ := List.any_eq_true.mp named
    rw [decide_eq_true_iff] at symbol
    subst c
    exact ⟨.token (.operator op), String.toList_singleton _, rfl⟩
  · rename_i noOpening noClosing unnamed
    have noSymbol (op : Operation) : op.symbol ≠ c := by
      intro symbol
      refine unnamed (List.any_eq_true.mpr ⟨op, ?_, decide_eq_true symbol⟩)
      cases op <;> decide
    exact ⟨.unrecognized ⟨inked, noDigit, noOpening, noClosing, noSymbol⟩,
      chars_unrecognized _, rfl⟩

theorem single_of_isForeign (foreign : IsForeign c) :
    single offset c = unrecognized ⟨c, offset⟩ := by
  have unnamed : Operation.all.any (·.symbol = c) = false := by
    refine List.any_eq_false.mpr fun op _ symbol => ?_
    exact foreign.noSymbol op (of_decide_eq_true symbol)
  rw [single, if_neg foreign.noOpening, if_neg foreign.noClosing, unnamed,
    if_neg Bool.false_ne_true]

/-- Only a numeral can be continued, and it begins with a digit. -/
theorem single_endsBefore (behind : List Char) : (single offset c).EndsBefore behind := by
  unfold single
  repeat' split
  all_goals exact trivial

end Single

section First

variable {offset : Nat} {text : List Char} {place behind : Place} {item : Item}

theorem beginning_comesFirst {c : Char} (inked : Text.isBlank c = false) (rest : List Char) :
    (beginning offset c rest).1.ComesFirst ⟨offset, c :: rest⟩ (beginning offset c rest).2 := by
  by_cases digit : c.isDigit = true
  · obtain ⟨more, left, last, rfl, takes, stops, munched⟩ := Numeral.exists_munch .whole [c] rest
    obtain ⟨numeral, chars⟩ := takes.exists_numeralText digit
    have begun : beginning offset c (more ++ left) =
        (token offset (.number numeral.lexeme), ⟨offset + numeral.lexeme.utf8ByteSize, left⟩) := by
      simp [beginning, digit, munched, NumeralText.lexeme, chars]
    rw [begun]
    refine ⟨.token (.number numeral), ⟨[], List.forall_mem_nil _, ?_, rfl⟩, ?_, ?_⟩
    · simp [Token.lexeme, chars]
    · intro other takes'
      rw [numeral.toList_lexeme, chars] at takes'
      have same := (Numeral.Takes.next (Numeral.extend?_digit digit .whole) takes).unique takes'
      rwa [← same]
    · simp only [stop, chars_token, Text.size_toList]
      rfl
  · have noDigit : c.isDigit = false := Bool.eq_false_iff.mpr digit
    obtain ⟨spelled, chars, here⟩ := single_isSpelled offset inked noDigit
    rw [beginning, if_neg digit]
    refine ⟨spelled, ⟨[], List.forall_mem_nil _, ?_, here⟩, single_endsBefore offset rest, ?_⟩
    · simp [chars]
    · simp [stop, chars, here]

theorem first?_comesFirst (found : first? offset text = some (item, behind)) :
    item.ComesFirst ⟨offset, text⟩ behind := by
  induction text generalizing offset with
  | nil => cases found
  | cons c rest ih =>
    unfold first? at found
    split at found
    · rename_i blank
      obtain ⟨spelled, ⟨gap, blanks, split, here⟩, ends, stop⟩ := ih found
      refine ⟨spelled, ⟨c :: gap, ?_, congrArg (c :: ·) split, ?_⟩, ends, stop⟩
      · exact List.forall_mem_cons.mpr ⟨blank, blanks⟩
      · simp only [Text.size_cons] at here ⊢
        omega
    · rename_i inked
      have first : (beginning offset c rest).1.ComesFirst ⟨offset, c :: rest⟩ _ :=
        beginning_comesFirst (Bool.eq_false_iff.mpr inked) rest
      rwa [Option.some.inj found] at first

/-- Blanks are passed over. -/
theorem first?_blanks {gap : List Char} (blanks : ∀ c ∈ gap, Text.isBlank c = true) :
    first? offset (gap ++ text) = first? (offset + Text.size gap) text := by
  induction gap generalizing offset with
  | nil => rfl
  | cons c gap ih =>
    have blank := blanks c (List.mem_cons_self ..)
    have rest : first? (offset + c.utf8Size) (gap ++ text) = _ :=
      ih fun d inside => blanks d (List.mem_cons_of_mem c inside)
    rw [List.cons_append, first?, if_pos blank, rest, Text.size_cons, Nat.add_assoc]

theorem first?_eq_none_iff : first? offset text = none ↔ ∀ c ∈ text, Text.isBlank c = true := by
  constructor
  · intro ended
    induction text generalizing offset with
    | nil => exact List.forall_mem_nil _
    | cons c rest ih =>
      unfold first? at ended
      split at ended
      · exact List.forall_mem_cons.mpr ⟨‹_›, ih ended⟩
      · cases ended
  · intro blanks
    have passed : first? offset (text ++ []) = none := first?_blanks blanks
    rwa [List.append_nil] at passed

theorem first?_token {token : Token} (spelled : token.IsSpelled) {rest : List Char}
    (ends : token.EndsBefore rest) :
    first? offset (token.lexeme.toList ++ rest) =
      some (.token offset token, ⟨offset + token.lexeme.utf8ByteSize, rest⟩) := by
  cases spelled with
  | number text =>
    simp only [Token.EndsBefore, Token.lexeme, text.toList_lexeme] at ends ⊢
    exact first?_numeral offset text ends
  | operator op =>
    simp only [Token.lexeme, String.toList_singleton, String.utf8ByteSize_singleton]
    exact first?_operator offset op rest
  | opening => rfl
  | closing => rfl

/-- What is found first is told by the text alone: it is the one item that comes first in it. -/
theorem first?_eq_some_iff :
    first? place.offset place.unread = some (item, behind) ↔ item.ComesFirst place behind := by
  refine ⟨first?_comesFirst, ?_⟩
  rintro ⟨spelled, ⟨gap, blanks, split, here⟩, ends, stop⟩
  obtain ⟨stopped, rest⟩ := behind
  simp only at split ends stop
  rw [split, first?_blanks blanks, ← here, stop, Item.stop]
  cases spelled with
  | token spelled =>
    rw [chars_token, Text.size_toList]
    exact first?_token spelled ends
  | @unrecognized found foreign =>
    have noDigit : ¬found.char.isDigit = true := Bool.eq_false_iff.mp foreign.noDigit
    simp [first?, beginning, foreign.inked, noDigit, single_of_isForeign _ foreign, Item.offset]

end First

end Item

namespace Place

/-- All the items from a place on, one after the other. -/
def items (place : Place) : List Item :=
  match _ : Item.first? place.offset place.unread with
  | none => []
  | some (item, behind) => item :: behind.items
termination_by place.unread.length
decreasing_by exact Item.length_first?_lt ‹_›

variable {place behind : Place} {item : Item}

theorem items_eq (place : Place) :
    place.items =
      match Item.first? place.offset place.unread with
      | none => []
      | some (item, behind) => item :: behind.items := by
  rw [items]
  split <;> simp only [*]

theorem items_of_first? (found : Item.first? place.offset place.unread = some (item, behind)) :
    place.items = item :: behind.items := by
  rw [items_eq, found]

theorem items_of_comesFirst (first : item.ComesFirst place behind) :
    place.items = item :: behind.items :=
  items_of_first? (Item.first?_eq_some_iff.mpr first)

theorem items_of_first?_none (ended : Item.first? place.offset place.unread = none) :
    place.items = [] := by
  rw [items_eq, ended]

/-- Blanks before a text change nothing but where its items stand. -/
theorem items_blanks_append {gap : List Char} (blanks : ∀ c ∈ gap, Text.isBlank c = true)
    (offset : Nat) (text : List Char) :
    items ⟨offset, gap ++ text⟩ = items ⟨offset + Text.size gap, text⟩ := by
  have passed : Item.first? offset (gap ++ text) = _ := Item.first?_blanks blanks
  rw [items_eq, items_eq, passed]

theorem items_of_blanks (blanks : ∀ c ∈ place.unread, Text.isBlank c = true) : place.items = [] :=
  items_of_first?_none (Item.first?_eq_none_iff.mpr blanks)

/-- From every place on there are only blanks, or an item comes first and the rest is as it is from
the place behind it. -/
@[elab_as_elim]
theorem induction {motive : Place → Prop}
    (blanks : ∀ place, (∀ c ∈ place.unread, Text.isBlank c = true) → motive place)
    (next : ∀ place item behind, Item.ComesFirst place item behind → motive behind → motive place)
    (place : Place) : motive place := by
  fun_induction items place with
  | case1 place ended => exact blanks place (Item.first?_eq_none_iff.mp ended)
  | case2 place item behind found ih =>
    exact next place item behind (Item.first?_comesFirst found) ih

/-- Items come in the order of the text, and none begins before the one before it is over. -/
theorem pairwise_items (place : Place) :
    (∀ item ∈ place.items, place.offset ≤ item.offset) ∧
      place.items.Pairwise fun item later => item.stop ≤ later.offset := by
  induction place using Place.induction with
  | blanks place blanks =>
    rw [items_of_blanks blanks]
    exact ⟨List.forall_mem_nil _, .nil⟩
  | next place item behind first ih =>
    obtain ⟨above, ordered⟩ := ih
    have begun := first.offset_le
    have nonempty := first.isSpelled.offset_lt_stop
    rw [first.stop_eq] at above
    rw [items_of_comesFirst first]
    refine ⟨List.forall_mem_cons.mpr ⟨begun, fun later inside => ?_⟩, .cons above ordered⟩
    have after := above later inside
    omega

/-- Every item of a text is spelled as items are. -/
theorem isSpelled_items (place : Place) : ∀ item ∈ place.items, item.IsSpelled := by
  induction place using Place.induction with
  | blanks place blanks =>
    rw [items_of_blanks blanks]
    exact List.forall_mem_nil _
  | next place item behind first ih =>
    rw [items_of_comesFirst first]
    exact List.forall_mem_cons.mpr ⟨first.isSpelled, ih⟩

/-- From a place on there are some tokens and no other items. -/
structure Holds (place : Place) (tokens : List Token) : Prop where
  recognized : ∀ item ∈ place.items, item.isToken = true
  tokens_eq : place.items.filterMap Item.token? = tokens

theorem holds_of_blanks (blanks : ∀ c ∈ place.unread, Text.isBlank c = true) :
    place.Holds [] := by
  constructor
  · rw [items_of_blanks blanks]
    exact List.forall_mem_nil _
  · rw [items_of_blanks blanks]
    rfl

section Append

variable {offset : Nat} {gap rest : List Char} {tokens : List Token}

theorem Holds.blanks_append (blanks : ∀ c ∈ gap, Text.isBlank c = true)
    (holds : Holds ⟨offset + Text.size gap, rest⟩ tokens) :
    Holds ⟨offset, gap ++ rest⟩ tokens := by
  obtain ⟨recognized, tokens⟩ := holds
  rw [← items_blanks_append blanks] at recognized tokens
  exact ⟨recognized, tokens⟩

/-- A token in front of others is found first, unless the text behind it goes on with it. -/
theorem Holds.token_append {token : Token} (spelled : token.IsSpelled)
    (ends : token.EndsBefore rest)
    (holds : Holds ⟨offset + Text.size token.lexeme.toList, rest⟩ tokens) :
    Holds ⟨offset, token.lexeme.toList ++ rest⟩ (token :: tokens) := by
  have first : Item.first? offset (token.lexeme.toList ++ rest) = _ :=
    Item.first?_token spelled ends
  rw [← Text.size_toList] at first
  have items : Place.items ⟨offset, token.lexeme.toList ++ rest⟩ = _ := items_of_first? first
  constructor
  · rw [items]
    exact List.forall_mem_cons.mpr ⟨rfl, holds.recognized⟩
  · rw [items]
    exact congrArg (token :: ·) holds.tokens_eq

end Append

end Place

end Reckoner
