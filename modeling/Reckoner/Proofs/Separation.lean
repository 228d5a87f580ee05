import Reckoner.Proofs.Concatenation
import Reckoner.Proofs.Leniency
import Reckoner.Proofs.Readability

namespace Reckoner

/-- A character between two texts that is part of neither: it is blank, or a token of its own. -/
inductive Separator where
  | blank (c : Char) (isBlank : Text.isBlank c = true)
  | opening
  | closing
  | operator (op : Operation)

namespace Separator

def char : Separator → Char
  | blank c _ => c
  | opening => '('
  | closing => ')'
  | operator op => op.symbol

/-- A blank is no token. -/
def tokens : Separator → List Token
  | blank _ _ => []
  | opening => [.opening]
  | closing => [.closing]
  | operator op => [.operator (String.singleton op.symbol)]

/-- A sign is the one separator that may belong to a number, and only behind a marker. -/
theorem extend?_char (separator : Separator) {numeral : Numeral}
    (apart : Numeral.isSign separator.char = true → numeral ≠ .marker) :
    numeral.extend? separator.char = none := by
  cases separator with
  | blank c isBlank => exact Numeral.extend?_blank isBlank numeral
  | opening => cases numeral <;> rfl
  | closing => cases numeral <;> rfl
  | operator op =>
    cases numeral with
    | marker =>
      cases op with
      | add => exact absurd rfl (apart rfl)
      | sub => exact absurd rfl (apart rfl)
      | mul => rfl
      | div => rfl
    | _ => cases op <;> rfl

/-- The tokens of a separator are found where it stands, and behind it the next text begins. -/
theorem items_cons (separator : Separator) (rest : List Char) :
    Place.items ⟨0, separator.char :: rest⟩ =
      separator.tokens.map (Item.token 0) ++ Place.items ⟨separator.char.utf8Size, rest⟩ := by
  cases separator with
  | blank c isBlank =>
    have blanks := Place.items_blanks_append (List.forall_mem_singleton.mpr isBlank) 0 rest
    rw [List.singleton_append, Text.size_cons, Text.size_nil, Nat.zero_add] at blanks
    exact blanks
  | opening => exact Place.items_of_first? rfl
  | closing => exact Place.items_of_first? rfl
  | operator op =>
    have first := Item.first?_operator 0 op rest
    rw [Nat.zero_add] at first
    exact Place.items_of_first? first

end Separator

namespace Numeral

variable {c : Char} {text : List Char} {last : Numeral}

theorem isMarker_of_extend? {numeral : Numeral} (extended : numeral.extend? c = some .marker) :
    c = 'e' ∨ c = 'E' := by
  cases numeral with
  | whole =>
    rcases whole_extend?_eq_some extended with ⟨_, other⟩ | ⟨_, other⟩ | ⟨isMarker, _⟩
    · cases other
    · cases other
    · exact isMarker
  | fraction =>
    rcases fraction_extend?_eq_some extended with ⟨_, other⟩ | ⟨isMarker, _⟩
    · cases other
    · exact isMarker
  | marker => cases (marker_extend?_eq_some extended).2
  | exponent => cases (exponent_extend?_eq_some extended).2

/-- A numeral has come to its marker when its text ends in one. -/
theorem Takes.eq_marker_iff (takes : Takes .whole text last) :
    last = .marker ↔ ∃ c ∈ text.getLast?, c = 'e' ∨ c = 'E' := by
  cases text using List.reverseRecOn with
  | nil =>
    cases takes
    exact iff_of_false nofun (by simp)
  | append_singleton front c =>
    obtain ⟨middle, _, back⟩ := takes.split
    cases back with
    | next extended nothing =>
      cases nothing
      simp only [List.getLast?_append, List.getLast?_singleton, Option.some_or, Option.mem_def,
        Option.some.injEq, exists_eq_left']
      constructor
      · rintro rfl
        exact isMarker_of_extend? extended
      · exact fun isMarker => eq_marker_of_extend? isMarker extended

/-- What goes on with a numeral makes a longer one with it. -/
theorem Takes.exists_longer {numeral : NumeralText} {next : Numeral}
    (takes : Takes .whole numeral.chars last) (extended : last.extend? c = some next)
    (rest : List Char) :
    ∃ (longer : NumeralText) (more behind : List Char), longer.chars = numeral.chars ++ c :: more ∧
      rest = more ++ behind ∧ ∀ final, Takes .whole longer.chars final →
        ∀ d ∈ behind.head?, final.extend? d = none := by
  obtain ⟨more, behind, final, split, further, stops, _⟩ := exists_munch next [] rest
  obtain ⟨first, digits, chars, digit⟩ := numeral.exists_first
  have whole : Takes .whole (numeral.chars ++ c :: more) final :=
    takes.append (.next extended further)
  rw [chars, List.cons_append] at whole
  cases whole with
  | next begun whole =>
    have goesOn : Numeral.whole.extend? first = some .whole := extend?_digit digit .whole
    rw [goesOn] at begun
    cases begun
    obtain ⟨longer, text⟩ := whole.exists_numeralText digit
    refine ⟨longer, more, behind, ?_, split, fun other takes' => ?_⟩
    · rw [text, chars, List.cons_append]
    · rw [text] at takes'
      have same := (Takes.next goesOn whole).unique takes'
      rwa [← same]

end Numeral

namespace Place

/-- An item with which the text ends is the last one. -/
theorem getLast?_items (place : Place) : ∀ item ∈ place.items,
    item.stop = place.offset + Text.size place.unread → place.items.getLast? = some item := by
  induction place using Place.induction with
  | blanks place blanks =>
    rw [items_of_blanks blanks]
    exact List.forall_mem_nil _
  | next place first behind comes ih =>
    rw [items_of_comesFirst comes]
    refine List.forall_mem_cons.mpr ⟨fun last => ?_, fun item inside last => ?_⟩
    · have nothing : behind.items = [] := items_of_blanks (by simp [comes.unread_eq_nil last])
      rw [nothing, List.getLast?_singleton]
    · rw [← comes.end_eq] at last
      rw [List.getLast?_cons, ih item inside last, Option.getD_some]

/-- An unrecognized character is found first also when the text goes on. -/
theorem head?_unrecognized_append {found : Unrecognized} (place : Place) (behind : List Char)
    (first : (place.items.filterMap Item.unrecognized?).head? = some found) :
    ((items ⟨place.offset, place.unread ++ behind⟩).filterMap Item.unrecognized?).head? =
      some found := by
  induction place using Place.induction with
  | blanks place blanks =>
    rw [items_of_blanks blanks] at first
    cases first
  | next place item next comes ih =>
    rw [items_of_comesFirst comes] at first
    cases item with
    | unrecognized other =>
      cases first
      rw [items_of_comesFirst (comes.append trivial)]
      rfl
    | token offset token =>
      have followed : next.unread ≠ [] := by
        intro nothing
        rw [items_of_blanks (by simp [nothing])] at first
        cases first
      rw [items_of_comesFirst (comes.append_of_ne_nil followed behind)]
      exact ih first

section Longer

variable {place : Place} {offset : Nat} {lexeme : String} {c : Char}

/-- A number with which the text ends is found as a longer one when the text goes on with it. -/
theorem exists_items_longer_of_comesFirst {next : Place}
    (comes : (Item.token offset (.number lexeme)).ComesFirst place next) (ended : next.unread = [])
    (extended : ∀ last, Numeral.Takes .whole lexeme.toList last → (last.extend? c).isSome = true)
    (rest : List Char) :
    ∃ longer more, items ⟨place.offset, place.unread ++ c :: rest⟩ =
      .token offset (.number longer) :: more ∧ longer ≠ lexeme := by
  obtain ⟨gap, blanks, split, here⟩ := comes.split
  cases comes.isSpelled with
  | token spelled =>
    cases spelled with
    | number numeral =>
      obtain ⟨last, takes⟩ := numeral.takes_chars
      rw [numeral.toList_lexeme] at extended
      obtain ⟨further, goesOn⟩ := Option.isSome_iff_exists.mp (extended last takes)
      obtain ⟨longer, more, behind, chars, left, ends⟩ := takes.exists_longer goesOn rest
      have whole : place.unread ++ c :: rest = gap ++ (longer.chars ++ behind) := by
        rw [split, ended, chars, left]
        simp [Token.lexeme]
      have found : items ⟨offset, longer.chars ++ behind⟩ = _ :=
        items_of_first? (Item.first?_numeral offset longer ends)
      refine ⟨longer.lexeme, items ⟨offset + longer.lexeme.utf8ByteSize, behind⟩, ?_, ?_⟩
      · have start : place.offset + Text.size gap = offset := here.symm
        rw [whole, items_blanks_append blanks, start, found]
      · intro same
        have length := congrArg (·.toList.length) same
        simp [chars] at length

/-- A number at the end of a text stands there no more when the text goes on with it. -/
theorem exists_items_longer (place : Place) (rest : List Char)
    (ends : place.items.getLast? = some (.token offset (.number lexeme)))
    (last : offset + lexeme.utf8ByteSize = place.offset + Text.size place.unread)
    (extended : ∀ last, Numeral.Takes .whole lexeme.toList last → (last.extend? c).isSome = true) :
    ∃ longer more, items ⟨place.offset, place.unread ++ c :: rest⟩ =
      place.items.dropLast ++ .token offset (.number longer) :: more ∧ longer ≠ lexeme := by
  induction place using Place.induction with
  | blanks place blanks =>
    rw [items_of_blanks blanks] at ends
    cases ends
  | next place item next comes ih =>
    rw [items_of_comesFirst comes] at ends ⊢
    cases later : next.items with
    | nil =>
      rw [later, List.getLast?_singleton, Option.some.injEq] at ends
      subst ends
      refine exists_items_longer_of_comesFirst comes (comes.unread_eq_nil ?_) extended rest
      rwa [Item.stop, Item.chars_token, Text.size_toList]
    | cons other others =>
      rw [later, List.getLast?_cons_cons, ← later] at ends
      rw [← comes.end_eq] at last
      have followed : next.unread ≠ [] := by
        intro nothing
        rw [items_of_blanks (by simp [nothing])] at later
        cases later
      obtain ⟨longer, more, items, differs⟩ := ih ends last
      refine ⟨longer, more, ?_, differs⟩
      rw [items_of_comesFirst (comes.append_of_ne_nil followed _), items, later,
        List.dropLast_cons_cons, List.cons_append]

end Longer

end Place

/-- A source whose last token is a number that ends with the source and has come to its marker. -/
def BreaksOff (lenient : Bool) (source : String) : Prop :=
  ∃ offset lexeme,
    (Scanner.ofString lenient source).drain.getLast? = some (.token offset (.number lexeme)) ∧
    offset + lexeme.utf8ByteSize = source.utf8ByteSize ∧
    ∃ c ∈ lexeme.toList.getLast?, c = 'e' ∨ c = 'E'

/-- What two scans make together: the first error, which in the second text stands behind some more
bytes, or the tokens of the one, those between, and the tokens of the other. -/
def separated (between : List Token) (bytes : Nat) :
    Except Unrecognized (List Token) → Except Unrecognized (List Token) →
      Except Unrecognized (List Token)
  | .error found, _ => .error found
  | .ok _, .error found => .error ⟨found.char, bytes + found.offset⟩
  | .ok before, .ok behind => .ok (before ++ between ++ behind)

section Separated

variable {lenient : Bool} {first : String} {separator : Separator}

theorem toList_separated (first second : String) (c : Char) :
    (first ++ String.singleton c ++ second).toList = first.toList ++ c :: second.toList := by
  simp

/-- A token with which the source ends is the last that is caught, in both modes. -/
theorem breaksOff_iff : BreaksOff lenient first ↔ ∃ offset lexeme,
    .token offset (.number lexeme) ∈ Place.items ⟨0, first.toList⟩ ∧
    offset + lexeme.utf8ByteSize = first.utf8ByteSize ∧
    ∃ c ∈ lexeme.toList.getLast?, c = 'e' ∨ c = 'E' := by
  constructor
  · rintro ⟨offset, lexeme, caught, last, isMarker⟩
    have inside := List.mem_of_getLast? caught
    rw [Scanner.drain_eq] at inside
    exact ⟨offset, lexeme, (List.mem_filter.mp inside).1, last, isMarker⟩
  · rintro ⟨offset, lexeme, inside, last, isMarker⟩
    refine ⟨offset, lexeme, ?_, last, isMarker⟩
    rw [← Text.size_toList, ← Text.size_toList first,
      ← Nat.zero_add (Text.size first.toList)] at last
    obtain ⟨front, split⟩ :=
      List.getLast?_eq_some_iff.mp (Place.getLast?_items ⟨0, first.toList⟩ _ inside last)
    rw [Scanner.drain_eq, Scanner.ofString, split, List.filter_append, List.filter_cons_of_pos rfl,
      List.filter_nil, List.getLast?_concat]

/-- A sign makes the number longer that a source breaks off in. -/
theorem BreaksOff.not_prefix {second : String} {before tokens : List Token}
    (breaks : BreaksOff lenient first) (isSign : Numeral.isSign separator.char = true)
    (scanned : scan lenient first = .ok before)
    (whole : scan lenient (first ++ String.singleton separator.char ++ second) = .ok tokens) :
    ¬before <+: tokens := by
  obtain ⟨offset, lexeme, inside, stop, isMarker⟩ := breaksOff_iff.mp breaks
  have last : offset + lexeme.utf8ByteSize = 0 + Text.size first.toList := by
    rw [stop, Text.size_toList, Nat.zero_add]
  have ends : (Place.items ⟨0, first.toList⟩).getLast? = some (.token offset (.number lexeme)) := by
    refine Place.getLast?_items _ _ inside ?_
    rwa [← Text.size_toList] at last
  have extended (final : Numeral) (takes : Numeral.Takes .whole lexeme.toList final) :
      (final.extend? separator.char).isSome = true := by
    rw [takes.eq_marker_iff.mpr isMarker, Numeral.extend?, isSign, Bool.or_true, if_pos rfl]
    rfl
  obtain ⟨longer, more, items, differs⟩ :=
    Place.exists_items_longer ⟨0, first.toList⟩ second.toList ends last extended
  obtain ⟨front, split⟩ := List.getLast?_eq_some_iff.mp ends
  have found := (scan_eq_ok_iff.mp scanned).1
  have found' := (scan_eq_ok_iff.mp whole).1
  rw [split, List.filterMap_append] at found
  rw [toList_separated, items, split, List.dropLast_concat, List.filterMap_append] at found'
  -- The tokens before the two numbers are the same, and the numbers are not.
  rintro ⟨behind, rfl⟩
  rw [← found, List.append_assoc] at found'
  have same : Token.number longer = .number lexeme :=
    (List.cons.inj (List.append_cancel_left found')).1
  exact differs (Token.number.inj same)

/-- A separator ends what stands before it, unless it is a sign behind a marker. -/
theorem endsBefore_separator (unbroken : Numeral.isSign separator.char = true →
      ¬BreaksOff lenient first) (behind : List Char) :
    ∀ item ∈ Place.items ⟨0, first.toList⟩, item.stop = Text.size first.toList →
      item.EndsBefore (separator.char :: behind) := by
  intro item inside last
  cases item with
  | unrecognized found => exact trivial
  | token offset token =>
    cases token with
    | number lexeme =>
      intro final takes c here
      cases here
      refine separator.extend?_char fun isSign marker => unbroken isSign ?_
      refine breaksOff_iff.mpr ⟨offset, lexeme, inside, ?_, takes.eq_marker_iff.mp marker⟩
      rwa [← Text.size_toList, ← Text.size_toList first]
    | _ => exact trivial

/-- The items of a separated text, told by those of each part alone. -/
theorem items_separated (second : String) (unbroken : Numeral.isSign separator.char = true →
      ¬BreaksOff lenient first) :
    Place.items ⟨0, (first ++ String.singleton separator.char ++ second).toList⟩ =
      Place.items ⟨0, first.toList⟩ ++ (separator.tokens.map (Item.token first.utf8ByteSize) ++
        (Place.items ⟨0, second.toList⟩).map
          (Item.shift (first.utf8ByteSize + separator.char.utf8Size))) := by
  have behind := Place.items_shift separator.char.utf8Size ⟨0, second.toList⟩
  rw [Nat.add_zero] at behind
  have shifted : Item.shift first.utf8ByteSize ∘ Item.shift separator.char.utf8Size =
      Item.shift (first.utf8ByteSize + separator.char.utf8Size) :=
    funext fun item => item.shift_shift _
  rw [toList_separated, Place.items_append_shift _ _ (endsBefore_separator unbroken _),
    separator.items_cons, behind, Text.size_toList, List.map_append, List.map_map, List.map_map,
    shifted]
  rfl

/-- A text in which a scan fails is no better when it goes on. -/
theorem scan_append_eq_error {found : Unrecognized} (failed : scan lenient first = .error found)
    (behind : String) : scan lenient (first ++ behind) = .error found := by
  cases lenient with
  | true =>
    rw [scan_lenient] at failed
    cases failed
  | false =>
    rw [scan_error_iff, skipped_eq] at failed ⊢
    rw [String.toList_append]
    exact Place.head?_unrecognized_append ⟨0, first.toList⟩ behind.toList failed

/-- Behind a first part in which nothing is rejected the scan goes as the second part tells. -/
theorem scan_separated_of_ok (second : String) {before : List Token}
    (unbroken : Numeral.isSign separator.char = true → ¬BreaksOff lenient first)
    (scanned : scan lenient first = .ok before) :
    scan lenient (first ++ String.singleton separator.char ++ second) =
      separated separator.tokens (first.utf8ByteSize + separator.char.utf8Size)
        (.ok before) (scan lenient second) := by
  have whole := items_separated second unbroken
  obtain ⟨tokens, recognized⟩ := scan_eq_ok_iff.mp scanned
  have between : ∀ item ∈ separator.tokens.map (Item.token first.utf8ByteSize),
      item.isToken = true := List.forall_mem_map.mpr fun _ _ => rfl
  cases scanned' : scan lenient second with
  | error found =>
    cases lenient with
    | true =>
      rw [scan_lenient] at scanned'
      cases scanned'
    | false =>
      rw [scan_error_iff, skipped_eq] at scanned'
      refine (scan_error_iff _ _).mpr ?_
      rw [skipped_eq, whole, List.filterMap_append, List.filterMap_append,
        Item.filterMap_unrecognized?_eq_nil (recognized rfl),
        Item.filterMap_unrecognized?_eq_nil between, Item.filterMap_unrecognized?_shift,
        List.nil_append, List.nil_append, List.head?_map, scanned', Option.map_some]
  | ok behind =>
    obtain ⟨tokens', recognized'⟩ := scan_eq_ok_iff.mp scanned'
    have itself : (separator.tokens.map (Item.token first.utf8ByteSize)).filterMap Item.token? =
        separator.tokens := by
      rw [List.filterMap_map]
      exact List.filterMap_some
    refine scan_eq_ok_iff.mpr ⟨?_, fun strict => ?_⟩
    · rw [whole, List.filterMap_append, List.filterMap_append, tokens, itself,
        Item.filterMap_token?_shift, tokens', List.append_assoc]
    · rw [whole]
      refine List.forall_mem_append.mpr ⟨recognized strict, List.forall_mem_append.mpr
        ⟨between, List.forall_mem_map.mpr fun item inside => ?_⟩⟩
      rw [Item.isToken_shift]
      exact recognized' strict item inside

/-- A text is scanned up to a separator and from there on as if each part stood alone, with the
tokens of the separator between them. An error in the second part is reported where it stands in the
whole. Only a sign is not always a separator: it belongs to the number when the first part breaks
off at a marker, and then the tokens of the first part are not among those found. -/
theorem scan_separated (lenient : Bool) (first second : String) (separator : Separator) :
    ((Numeral.isSign separator.char = true → ∀ tokens, scan lenient first = .ok tokens →
        ¬BreaksOff lenient first) →
      scan lenient (first ++ String.singleton separator.char ++ second) =
        separated separator.tokens (first.utf8ByteSize + separator.char.utf8Size)
          (scan lenient first) (scan lenient second)) ∧
    (Numeral.isSign separator.char = true → ∀ before behind, scan lenient first = .ok before →
      BreaksOff lenient first → scan lenient second = .ok behind →
      scan lenient (first ++ String.singleton separator.char ++ second) ≠
        .ok (before ++ separator.tokens ++ behind)) := by
  refine ⟨fun apart => ?_, fun isSign before behind scanned breaks _ whole => ?_⟩
  · cases scanned : scan lenient first with
    | error found =>
      rw [String.append_assoc]
      exact scan_append_eq_error scanned _
    | ok before =>
      have unbroken isSign := apart isSign before scanned
      exact scan_separated_of_ok second unbroken scanned
  · refine breaks.not_prefix isSign scanned whole ?_
    rw [List.append_assoc]
    exact List.prefix_append ..

end Separated

end Reckoner
