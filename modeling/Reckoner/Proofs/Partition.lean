import Reckoner.Proofs.Passing

namespace Reckoner

namespace Text

/-- The part of a text between two numbers of bytes. Both have to be boundaries of characters, or
there is no such part. -/
def slice? (text : String) (start stop : Nat) : Option String :=
  if bounds : String.Pos.Raw.IsValid text ⟨start⟩ ∧ String.Pos.Raw.IsValid text ⟨stop⟩ ∧
      start ≤ stop then
    some (text.extract (text.pos ⟨start⟩ bounds.1) (text.pos ⟨stop⟩ bounds.2.1))
  else none

theorem slice?_append (before part behind : String) :
    slice? (before ++ part ++ behind) before.utf8ByteSize
      (before.utf8ByteSize + part.utf8ByteSize) = some part := by
  have start : String.Pos.Raw.IsValid (before ++ part ++ behind) ⟨before.utf8ByteSize⟩ :=
    String.Pos.Raw.isValid_iff_exists_append.mpr
      ⟨before, part ++ behind, String.append_assoc .., rfl⟩
  have stop : String.Pos.Raw.IsValid (before ++ part ++ behind)
      ⟨before.utf8ByteSize + part.utf8ByteSize⟩ :=
    String.Pos.Raw.isValid_iff_exists_append.mpr
      ⟨before ++ part, behind, rfl, String.Pos.Raw.ext String.utf8ByteSize_append.symm⟩
  rw [slice?, dif_pos ⟨start, stop, Nat.le_add_right ..⟩]
  refine congrArg some (String.toByteArray_inj.mp ?_)
  simp only [String.toByteArray_extract, String.offset_pos, String.append_assoc,
    String.toByteArray_append, ← String.size_toByteArray]
  have whole := @ByteArray.extract_append_size_add before.toByteArray
    (part.toByteArray ++ behind.toByteArray) 0 part.toByteArray.size
  rw [Nat.add_zero] at whole
  rw [whole, ByteArray.extract_append_eq_left rfl]

/-- A character of two texts put together stands in the one or in the other. -/
theorem stands_in_either {before behind front rest : List Char} {c : Char}
    (split : before ++ c :: behind = front ++ rest) :
    (∃ more, front = before ++ c :: more) ∨
      ∃ inner, before = front ++ inner ∧ rest = inner ++ c :: behind := by
  rcases List.append_eq_append_iff.mp split with ⟨more, rfl, left⟩ | ⟨inner, rfl, right⟩
  · cases more with
    | nil => exact Or.inr ⟨[], by simp, left.symm⟩
    | cons d more =>
      obtain ⟨rfl, _⟩ := List.cons.inj left
      exact Or.inl ⟨more, rfl⟩
  · exact Or.inr ⟨inner, rfl, right⟩

end Text

/-- Some items are the parts of a source, and between them there are only blanks. -/
structure IsPartition (source : String) (items : List Item) : Prop where
  /-- Items are disjoint and in the order of the source. -/
  ordered : items.Pairwise fun item later => item.stop ≤ later.offset
  nonempty : ∀ item ∈ items, item.offset < item.stop
  /-- An item is the text of the source between the boundaries of characters that it names. -/
  slices : ∀ item ∈ items, Text.slice? source item.offset item.stop = some item.text
  blank_outside : ∀ (position : source.Pos) (inside : position ≠ source.endPos),
    (∀ item ∈ items,
      ¬(item.offset ≤ position.offset.byteIdx ∧ position.offset.byteIdx < item.stop)) →
    Text.isBlank (position.get inside) = true
  joined : ∃ (gaps : List String) (final : String), gaps.length = items.length ∧
    (∀ gap ∈ final :: gaps, ∀ c ∈ gap.toList, Text.isBlank c = true) ∧
    source = String.join (List.zipWith (· ++ ·) gaps (items.map Item.text)) ++ final

namespace Place

theorem items_stand (place : Place) : ∀ item ∈ place.items, ∃ before behind,
    place.unread = before ++ (item.chars ++ behind) ∧
      item.offset = place.offset + Text.size before := by
  induction place using Place.induction with
  | blanks place blanks =>
    rw [items_of_blanks blanks]
    exact List.forall_mem_nil _
  | next place item behind first ih =>
    obtain ⟨gap, _, split, here⟩ := first.split
    rw [items_of_comesFirst first]
    refine List.forall_mem_cons.mpr ⟨⟨gap, behind.unread, split, here⟩, ?_⟩
    intro later inside
    obtain ⟨before, rest, split', there⟩ := ih later inside
    refine ⟨gap ++ (item.chars ++ before), rest, ?_, ?_⟩
    · simp only [split, split', List.append_assoc]
    · rw [there, first.stop_eq, Item.stop, here]
      simp only [Text.size_append]
      omega

/-- A character that no item takes is blank. -/
theorem blank_outside (place : Place) (before : List Char) (c : Char) (behind : List Char)
    (split : place.unread = before ++ c :: behind)
    (outside : ∀ item ∈ place.items, ¬(item.offset ≤ place.offset + Text.size before ∧
      place.offset + Text.size before < item.stop)) :
    Text.isBlank c = true := by
  induction place using Place.induction generalizing before with
  | blanks place blanks =>
    refine blanks c ?_
    rw [split]
    exact List.mem_append_right before (List.mem_cons_self ..)
  | next place item next first ih =>
    obtain ⟨gap, blanks, split', here⟩ := first.split
    rw [items_of_comesFirst first] at outside
    obtain ⟨notInside, outside⟩ := List.forall_mem_cons.mp outside
    have stop := first.stop_eq
    unfold Item.stop at stop notInside
    rw [split] at split'
    rcases Text.stands_in_either split' with ⟨more, rfl⟩ | ⟨inner, rfl, rest⟩
    · exact blanks c (List.mem_append_right before (List.mem_cons_self ..))
    rcases Text.stands_in_either rest.symm with ⟨more, chars⟩ | ⟨inner, rfl, left⟩
    · -- The character stands in the item.
      have positive := c.utf8Size_pos
      have size := congrArg Text.size chars
      simp only [Text.size_append, Text.size_cons] at size here notInside
      omega
    · refine ih inner left fun later inside => ?_
      have elsewhere := outside later inside
      simp only [Text.size_append] at elsewhere here
      have same : next.offset + Text.size inner =
          place.offset + (Text.size gap + (Text.size item.chars + Text.size inner)) := by omega
      rwa [same]

theorem joined (place : Place) : ∃ (gaps : List String) (final : String),
    gaps.length = place.items.length ∧
    (∀ gap ∈ final :: gaps, ∀ c ∈ gap.toList, Text.isBlank c = true) ∧
    String.ofList place.unread =
      String.join (List.zipWith (· ++ ·) gaps (place.items.map Item.text)) ++ final := by
  induction place using Place.induction with
  | blanks place blanks =>
    rw [items_of_blanks blanks]
    refine ⟨[], String.ofList place.unread, rfl, ?_, by simp⟩
    simpa using blanks
  | next place item behind first ih =>
    obtain ⟨gap, blanks, split, _⟩ := first.split
    obtain ⟨gaps, final, length, blank, join⟩ := ih
    rw [items_of_comesFirst first]
    refine ⟨String.ofList gap :: gaps, final, by simp [length], ?_, ?_⟩
    · obtain ⟨last, others⟩ := List.forall_mem_cons.mp blank
      refine List.forall_mem_cons.mpr ⟨last, List.forall_mem_cons.mpr ⟨?_, others⟩⟩
      simpa using blanks
    · have chars : String.ofList item.chars = item.text := String.ofList_toList
      simp only [split, String.ofList_append, chars, join, List.map_cons, List.zipWith_cons_cons,
        String.join_cons, String.append_assoc]

end Place

/-- What a strict scanner finds in a source are the parts of it: nothing is lost and nothing is made
up, and no part begins or ends within a character or beyond the source. -/
theorem drain_isPartition (source : String) :
    IsPartition source (Scanner.ofString false source).drain := by
  rw [Scanner.drain_ofString]
  constructor
  · exact (Place.pairwise_items _).2
  · exact fun item inside => (Place.isSpelled_items _ item inside).offset_lt_stop
  · intro item inside
    obtain ⟨before, behind, split, here⟩ := Place.items_stand _ item inside
    have whole : source = String.ofList before ++ item.text ++ String.ofList behind := by
      refine String.toList_inj.mp (split.trans ?_)
      simp [Item.chars]
    have slice := Text.slice?_append (String.ofList before) item.text (String.ofList behind)
    have offset : item.offset = (String.ofList before).utf8ByteSize := here.trans (Nat.zero_add _)
    have stop : item.stop = (String.ofList before).utf8ByteSize + item.text.utf8ByteSize := by
      rw [Item.stop, Item.chars, Text.size_toList, offset]
    rwa [← whole, ← stop, ← offset] at slice
  · intro position inside outside
    have splits := position.splits_next_right inside
    have chars := congrArg String.toList splits.eq_append
    rw [String.toList_append, String.toList_append, String.toList_singleton] at chars
    have offset : position.offset.byteIdx = Text.size (source.sliceTo position).copy.toList := by
      rw [Text.size_toList, splits.offset_eq_rawEndPos]
      rfl
    refine Place.blank_outside ⟨0, source.toList⟩ _ _ _ chars fun item member => ?_
    have elsewhere := outside item member
    rwa [offset, ← Nat.zero_add (Text.size _)] at elsewhere
  · obtain ⟨gaps, final, length, blank, join⟩ := Place.joined ⟨0, source.toList⟩
    exact ⟨gaps, final, length, blank, String.ofList_toList.symm.trans join⟩

end Reckoner
