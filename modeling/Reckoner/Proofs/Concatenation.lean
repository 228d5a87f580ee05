import Reckoner.Proofs.Passing

namespace Reckoner

namespace Item

/-- The same item with some more bytes before it. -/
def shift (bytes : Nat) : Item → Item
  | token offset found => token (bytes + offset) found
  | unrecognized found => unrecognized ⟨found.char, bytes + found.offset⟩

variable {bytes : Nat} {item : Item}

@[simp] theorem token?_shift : (item.shift bytes).token? = item.token? := by
  cases item <;> rfl

theorem unrecognized?_shift : (item.shift bytes).unrecognized? =
    item.unrecognized?.map fun found => ⟨found.char, bytes + found.offset⟩ := by
  cases item <;> rfl

theorem filterMap_token?_shift (items : List Item) :
    (items.map (shift bytes)).filterMap token? = items.filterMap token? := by
  rw [List.filterMap_map]
  exact congrArg (List.filterMap · items) (funext fun item => item.token?_shift)

theorem filterMap_unrecognized?_shift (items : List Item) :
    (items.map (shift bytes)).filterMap unrecognized? =
      (items.filterMap unrecognized?).map fun found => ⟨found.char, bytes + found.offset⟩ := by
  rw [List.filterMap_map, List.map_filterMap]
  exact congrArg (List.filterMap · items) (funext fun item => item.unrecognized?_shift)

@[simp] theorem isToken_shift : (item.shift bytes).isToken = item.isToken := by
  cases item <;> rfl

@[simp] theorem chars_shift : (item.shift bytes).chars = item.chars := by
  cases item <;> rfl

theorem shift_shift (further : Nat) : (item.shift bytes).shift further =
    item.shift (further + bytes) := by
  cases item <;> simp only [shift, Nat.add_assoc]

theorem offset_shift : (item.shift bytes).offset = bytes + item.offset := by
  cases item <;> rfl

/-- Where an item stands has no part in whether it is one. -/
theorem ComesFirst.shift {place behind : Place} (first : item.ComesFirst place behind)
    (bytes : Nat) :
    (item.shift bytes).ComesFirst ⟨bytes + place.offset, place.unread⟩
      ⟨bytes + behind.offset, behind.unread⟩ := by
  obtain ⟨spelled, ⟨gap, blanks, split, here⟩, ends, stop⟩ := first
  refine ⟨?_, ⟨gap, blanks, ?_, ?_⟩, ?_, ?_⟩
  · cases spelled with
    | token spelled => exact .token spelled
    | unrecognized foreign => exact .unrecognized foreign
  · rwa [chars_shift]
  · rw [offset_shift, here, Nat.add_assoc]
  · cases item <;> exact ends
  · rw [Item.stop, chars_shift, offset_shift, Nat.add_assoc]
    exact congrArg (bytes + ·) stop

/-- Only the first character behind an item tells whether it is over. -/
theorem EndsBefore.congr_head {behind other : List Char} (ends : item.EndsBefore behind)
    (same : other.head? = behind.head?) : item.EndsBefore other := by
  cases item with
  | unrecognized found => exact trivial
  | token offset found =>
    cases found with
    | number lexeme =>
      intro last takes c first
      exact ends last takes c (same ▸ first)
    | _ => exact trivial

/-- An item that is over before a text is over before any beginning of it. -/
theorem EndsBefore.of_append {front behind : List Char} (ends : item.EndsBefore (front ++ behind)) :
    item.EndsBefore front := by
  cases item with
  | unrecognized found => exact trivial
  | token offset found =>
    cases found with
    | number lexeme =>
      intro last takes c first
      refine ends last takes c ?_
      rw [List.head?_append, Option.mem_def.mp first]
      rfl
    | _ => exact trivial

/-- An item comes first also when the text goes on, unless it goes on with the item. -/
theorem ComesFirst.append {place next : Place} (first : item.ComesFirst place next)
    {behind : List Char} (ends : item.EndsBefore (next.unread ++ behind)) :
    item.ComesFirst ⟨place.offset, place.unread ++ behind⟩
      ⟨next.offset, next.unread ++ behind⟩ := by
  obtain ⟨spelled, ⟨gap, blanks, split, here⟩, _, stop⟩ := first
  refine ⟨spelled, ⟨gap, blanks, ?_, here⟩, ends, stop⟩
  simp only [split, List.append_assoc]

/-- Text that is added behind what follows an item leaves the item as it is. -/
theorem ComesFirst.append_of_ne_nil {place next : Place} (first : item.ComesFirst place next)
    (followed : next.unread ≠ []) (behind : List Char) :
    item.ComesFirst ⟨place.offset, place.unread ++ behind⟩
      ⟨next.offset, next.unread ++ behind⟩ := by
  refine first.append (first.ends.congr_head ?_)
  cases left : next.unread with
  | nil => exact absurd left followed
  | cons c rest => rfl

/-- The text behind an item ends where the whole text ends. -/
theorem ComesFirst.end_eq {place next : Place} (first : item.ComesFirst place next) :
    next.offset + Text.size next.unread = place.offset + Text.size place.unread := by
  obtain ⟨gap, _, split, begun⟩ := first.split
  have stop := first.stop_eq
  simp only [Item.stop] at stop
  simp only [split, Text.size_append]
  omega

/-- An item with which the text ends has nothing behind it. -/
theorem ComesFirst.unread_eq_nil {place next : Place} (first : item.ComesFirst place next)
    (last : item.stop = place.offset + Text.size place.unread) : next.unread = [] := by
  have whole := first.end_eq
  have stop := first.stop_eq
  refine Classical.byContradiction fun followed => ?_
  have positive := Text.size_pos followed
  omega

end Item

namespace Place

/-- A text that stands behind more bytes has the same items there. -/
theorem items_shift (bytes : Nat) (place : Place) :
    items ⟨bytes + place.offset, place.unread⟩ = place.items.map (Item.shift bytes) := by
  induction place using Place.induction with
  | blanks place blanks =>
    have none : items ⟨bytes + place.offset, place.unread⟩ = [] := items_of_blanks blanks
    rw [none, items_of_blanks blanks, List.map_nil]
  | next place item behind first ih =>
    rw [items_of_comesFirst first, items_of_comesFirst (first.shift bytes), ih, List.map_cons]

/-- The items of two texts put together are those of the one and then those of the other, unless the
first text ends in a numeral that the second goes on with. -/
theorem items_append (place : Place) (behind : List Char)
    (ends : ∀ item ∈ place.items, item.stop = place.offset + Text.size place.unread →
      item.EndsBefore behind) :
    items ⟨place.offset, place.unread ++ behind⟩ =
      place.items ++ items ⟨place.offset + Text.size place.unread, behind⟩ := by
  induction place using Place.induction with
  | blanks place blanks => rw [items_of_blanks blanks, items_blanks_append blanks, List.nil_append]
  | next place item next first ih =>
    rw [items_of_comesFirst first] at ends
    obtain ⟨here, later⟩ := List.forall_mem_cons.mp ends
    have whole := first.end_eq
    have finished : item.EndsBefore (next.unread ++ behind) := by
      cases left : next.unread with
      | nil =>
        rw [left, Text.size_nil, Nat.add_zero, first.stop_eq] at whole
        exact here whole
      | cons c rest =>
        have ended := first.ends
        rw [left] at ended
        exact ended.congr_head rfl
    rw [items_of_comesFirst first, items_of_comesFirst (first.append finished),
      ih fun other inside stop => later other inside (stop.trans whole), whole, List.cons_append]

/-- A text can be cut before any of its items: the items before it are those of the text before it,
and those behind it are left from the place where it is over. -/
theorem exists_cut (place : Place) {item : Item} {front back : List Item}
    (items_eq : place.items = front ++ item :: back) :
    ∃ (before : List Char) (next : Place), place.unread = before ++ (item.chars ++ next.unread) ∧
      item.offset = place.offset + Text.size before ∧ item.EndsBefore next.unread ∧
      items ⟨place.offset, before⟩ = front ∧ next.items = back := by
  induction place using Place.induction generalizing front with
  | blanks place blanks =>
    rw [items_of_blanks blanks] at items_eq
    cases (List.append_eq_nil_iff.mp items_eq.symm).2
  | next place first behind comes ih =>
    obtain ⟨gap, blanks, split, here⟩ := comes.split
    rw [items_of_comesFirst comes] at items_eq
    cases front with
    | nil =>
      obtain ⟨rfl, rfl⟩ := List.cons.inj items_eq
      exact ⟨gap, behind, split, here, comes.ends, items_of_blanks blanks, rfl⟩
    | cons other front =>
      obtain ⟨rfl, later⟩ := List.cons.inj items_eq
      obtain ⟨before, next, split', there, ends, front_eq, back_eq⟩ := ih later
      have ended := comes.ends
      rw [split'] at ended
      have shorter : first.ComesFirst ⟨place.offset, gap ++ (first.chars ++ before)⟩
          ⟨behind.offset, before⟩ :=
        ⟨comes.isSpelled, ⟨gap, blanks, rfl, here⟩, ended.of_append, comes.stop_eq⟩
      refine ⟨gap ++ (first.chars ++ before), next, ?_, ?_, ends, ?_, back_eq⟩
      · rw [split, split', List.append_assoc, List.append_assoc]
      · rw [there, comes.stop_eq, Item.stop, here]
        simp only [Text.size_append]
        omega
      · rw [items_of_comesFirst shorter, front_eq]

/-- The items of a source that is put together from two texts, told by those of each text alone. -/
theorem items_append_shift (before behind : List Char)
    (ends : ∀ item ∈ items ⟨0, before⟩, item.stop = Text.size before → item.EndsBefore behind) :
    items ⟨0, before ++ behind⟩ =
      items ⟨0, before⟩ ++ (items ⟨0, behind⟩).map (Item.shift (Text.size before)) := by
  have whole := items_append ⟨0, before⟩ behind fun item inside stop =>
    ends item inside (stop.trans (Nat.zero_add _))
  have shifted := items_shift (Text.size before) ⟨0, behind⟩
  rw [← shifted]
  simpa only [Nat.zero_add, Nat.add_zero] using whole

end Place

section Scan

variable {lenient : Bool} {first second : String} {tokens before behind : List Token}

/-- A scan goes well if nothing in the source is rejected, and then it gives the tokens. -/
theorem scan_eq_ok_iff {source : String} : scan lenient source = .ok tokens ↔
    (Place.items ⟨0, source.toList⟩).filterMap Item.token? = tokens ∧
      (lenient = false → ∀ item ∈ Place.items ⟨0, source.toList⟩, item.isToken = true) := by
  constructor
  · intro scanned
    refine ⟨tokens_of_scan source scanned, ?_⟩
    rintro rfl
    rcases scan_strict source with ⟨others, holds, _⟩ | ⟨_, _, _, _, _, failed⟩
    · exact holds.recognized
    · rw [failed] at scanned
      cases scanned
  · rintro ⟨same, recognized⟩
    cases lenient with
    | true => rw [scan_lenient, same]
    | false => exact scan_of_holds source ⟨recognized rfl, same⟩ false

/-- Two sources put together have the tokens of both, if no token of the first is gone on with by
the second. -/
theorem scan_append (scanned : scan lenient first = .ok before)
    (scanned' : scan lenient second = .ok behind)
    (ends : ∀ token ∈ before, token.EndsBefore second.toList) :
    scan lenient (first ++ second) = .ok (before ++ behind) := by
  obtain ⟨rfl, recognized⟩ := scan_eq_ok_iff.mp scanned
  obtain ⟨rfl, recognized'⟩ := scan_eq_ok_iff.mp scanned'
  have whole : Place.items ⟨0, (first ++ second).toList⟩ = Place.items ⟨0, first.toList⟩ ++
      (Place.items ⟨0, second.toList⟩).map (Item.shift (Text.size first.toList)) := by
    rw [String.toList_append]
    refine Place.items_append_shift first.toList second.toList fun item inside _ => ?_
    cases item with
    | unrecognized found => exact trivial
    | token offset found => exact ends found (List.mem_filterMap.mpr ⟨_, inside, rfl⟩)
  refine scan_eq_ok_iff.mpr ⟨?_, fun strict item inside => ?_⟩
  · rw [whole, List.filterMap_append, Item.filterMap_token?_shift]
  · rw [whole] at inside
    rcases List.mem_append.mp inside with front | back
    · exact recognized strict item front
    · obtain ⟨other, member, rfl⟩ := List.mem_map.mp back
      rw [Item.isToken_shift]
      exact recognized' strict other member

/-- A token that is written alone is scanned as it is. -/
theorem scan_token {token : Token} (spelled : token.IsSpelled) :
    scan lenient token.lexeme = .ok [token] := by
  refine scan_of_holds _ ?_ lenient
  have nothing (offset : Nat) : Place.Holds ⟨offset, []⟩ [] :=
    Place.holds_of_blanks (List.forall_mem_nil _)
  have ends : token.EndsBefore [] := by
    cases token with
    | number lexeme => exact fun _ _ _ inside => nomatch inside
    | _ => exact trivial
  have holds := Place.Holds.token_append spelled ends (nothing (0 + Text.size token.lexeme.toList))
  rwa [List.append_nil] at holds

end Scan

end Reckoner
