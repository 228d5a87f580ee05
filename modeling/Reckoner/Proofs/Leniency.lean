import Reckoner.Proofs.Source
import Reckoner.Proofs.Passing

namespace Reckoner

/-- The characters that a lenient scan of a source passes over. -/
def skipped (source : String) : List Unrecognized :=
  (Scanner.ofString true source).rest.passed.filterMap Item.unrecognized?

/-- Characters with a space in place of each that begins at a marked number of bytes. -/
def Text.blankOut (marked : List Nat) (offset : Nat) : List Char → List Char
  | [] => []
  | c :: rest => (if offset ∈ marked then ' ' else c) :: blankOut marked (offset + c.utf8Size) rest

/-- A source with a space in place of each character that a lenient scan passes over. -/
def blankOut (source : String) : String :=
  String.ofList (Text.blankOut ((skipped source).map Unrecognized.offset) 0 source.toList)

namespace Text

variable {marked : List Nat} {offset : Nat}

theorem blankOut_append (before behind : List Char) :
    blankOut marked offset (before ++ behind) =
      blankOut marked offset before ++ blankOut marked (offset + size before) behind := by
  induction before generalizing offset with
  | nil => rfl
  | cons c before ih => simp [blankOut, ih, Nat.add_assoc]

theorem blankOut_blanks {gap : List Char} (blanks : ∀ c ∈ gap, isBlank c = true) :
    ∀ c ∈ blankOut marked offset gap, isBlank c = true := by
  induction gap generalizing offset with
  | nil => exact List.forall_mem_nil _
  | cons c gap ih =>
    obtain ⟨blank, blanks⟩ := List.forall_mem_cons.mp blanks
    refine List.forall_mem_cons.mpr ⟨?_, ih blanks⟩
    split
    · exact isBlank_space
    · exact blank

theorem blankOut_eq_self {chars : List Char}
    (unmarked : ∀ place ∈ marked, ¬(offset ≤ place ∧ place < offset + size chars)) :
    blankOut marked offset chars = chars := by
  induction chars generalizing offset with
  | nil => rfl
  | cons c chars ih =>
    have positive := c.utf8Size_pos
    simp only [size_cons] at unmarked
    have here : offset ∉ marked := by
      intro inside
      have other := unmarked offset inside
      omega
    rw [blankOut, if_neg here, ih]
    intro place inside
    have other := unmarked place inside
    omega

/-- A character that is replaced is blank from then on. -/
theorem head?_blankOut {chars : List Char} {c : Char}
    (first : c ∈ (blankOut marked offset chars).head?) :
    isBlank c = true ∨ c ∈ chars.head? := by
  cases chars with
  | nil => cases first
  | cons d chars =>
    simp only [blankOut, List.head?_cons, Option.mem_def, Option.some.injEq] at first ⊢
    split at first
    · subst first
      exact Or.inl isBlank_space
    · exact Or.inr first

end Text

/-- Where a token is over it stays over when characters behind it are replaced by spaces. -/
theorem Token.EndsBefore.blankOut {token : Token} {behind : List Char}
    (ends : token.EndsBefore behind) (marked : List Nat) (offset : Nat) :
    token.EndsBefore (Text.blankOut marked offset behind) := by
  cases token with
  | number lexeme =>
    intro last takes c first
    rcases Text.head?_blankOut first with blank | same
    · exact Numeral.extend?_blank blank last
    · exact ends last takes c same
  | _ => exact trivial

namespace Place

/-- The marks from a place on are where the unrecognized characters stand. -/
def IsMarkedBy (place : Place) (marked : List Nat) : Prop :=
  ∀ n, place.offset ≤ n →
    (n ∈ marked ↔ ∃ found, .unrecognized found ∈ place.items ∧ found.offset = n)

section Marks

variable {marked : List Nat} {place behind : Place} {item : Item}

theorem mem_items_behind {other : Item} (first : item.ComesFirst place behind)
    (inside : other ∈ item :: behind.items) (later : behind.offset ≤ other.offset) :
    other ∈ behind.items := by
  rcases List.mem_cons.mp inside with rfl | inside
  · have nonempty := first.isSpelled.offset_lt_stop
    have stop := first.stop_eq
    omega
  · exact inside

theorem IsMarkedBy.later (marks : place.IsMarkedBy marked)
    (first : item.ComesFirst place behind) : behind.IsMarkedBy marked := by
  intro n after
  have begun := first.offset_le
  have nonempty := first.isSpelled.offset_lt_stop
  have stop := first.stop_eq
  rw [marks n (by omega), items_of_comesFirst first]
  constructor
  · rintro ⟨found, inside, rfl⟩
    exact ⟨found, mem_items_behind first inside after, rfl⟩
  · rintro ⟨found, inside, same⟩
    exact ⟨found, List.mem_cons_of_mem item inside, same⟩

/-- No mark is in a token. -/
theorem IsMarkedBy.blankOut_token {offset : Nat} {token : Token} (marks : place.IsMarkedBy marked)
    (first : (Item.token offset token).ComesFirst place behind) :
    Text.blankOut marked offset token.lexeme.toList = token.lexeme.toList := by
  refine Text.blankOut_eq_self fun n inside bounds => ?_
  have begun : place.offset ≤ offset := first.offset_le
  have stop : behind.offset = offset + Text.size token.lexeme.toList := first.stop_eq
  obtain ⟨found, member, rfl⟩ := (marks n (by omega)).mp inside
  rw [items_of_comesFirst first] at member
  rcases List.mem_cons.mp member with same | later
  · cases same
  · have after : behind.offset ≤ found.offset := (pairwise_items behind).1 _ later
    omega

theorem IsMarkedBy.blankOut_unrecognized {found : Unrecognized} (marks : place.IsMarkedBy marked)
    (first : (Item.unrecognized found).ComesFirst place behind) :
    Text.blankOut marked found.offset [found.char] = [' '] := by
  have inside : found.offset ∈ marked := by
    refine (marks found.offset first.offset_le).mpr ⟨found, ?_, rfl⟩
    rw [items_of_comesFirst first]
    exact List.mem_cons_self ..
  rw [Text.blankOut, if_pos inside]
  rfl

end Marks

/-- When every unrecognized character from a place on is replaced by a space, the tokens are left
and nothing else. -/
theorem IsMarkedBy.holds_blankOut {marked : List Nat} {place : Place}
    (marks : place.IsMarkedBy marked) (start : Nat) :
    Holds ⟨start, Text.blankOut marked place.offset place.unread⟩
      (place.items.filterMap Item.token?) := by
  -- A space may be shorter than the character it replaces, so the text behind it moves.
  induction place using Place.induction generalizing start with
  | blanks place blanks =>
    rw [items_of_blanks blanks]
    exact holds_of_blanks (Text.blankOut_blanks blanks)
  | next place item behind first ih =>
    obtain ⟨gap, blanks, split, here⟩ := first.split
    rw [items_of_comesFirst first, split, Text.blankOut_append, Text.blankOut_append, ← here,
      ← Item.stop, ← first.stop_eq]
    refine Holds.blanks_append (Text.blankOut_blanks blanks) ?_
    cases item with
    | token offset token =>
      cases first.isSpelled with
      | token spelled =>
        have ends : token.EndsBefore behind.unread := first.ends
        rw [Item.chars_token, Item.offset, marks.blankOut_token first]
        exact Holds.token_append spelled (ends.blankOut marked behind.offset)
          (ih (marks.later first) _)
    | unrecognized found =>
      rw [Item.chars_unrecognized, Item.offset, marks.blankOut_unrecognized first]
      have space : ∀ c ∈ [' '], Text.isBlank c = true :=
        List.forall_mem_singleton.mpr Text.isBlank_space
      exact Holds.blanks_append space (ih (marks.later first) _)

end Place

theorem Item.filterMap_unrecognized?_eq_nil {items : List Item}
    (all : ∀ item ∈ items, item.isToken = true) : items.filterMap unrecognized? = [] := by
  refine List.filterMap_eq_nil_iff.mpr fun item inside => ?_
  have token := all item inside
  rw [← Bool.not_eq_false', ← isSome_unrecognized?] at token
  simpa using token

section Modes

variable (source : String)

theorem skipped_eq :
    skipped source = (Place.items ⟨0, source.toList⟩).filterMap Item.unrecognized? := by
  have lenient : (Scanner.ofString true source).lenient = true := rfl
  rw [skipped, (Scanner.rest_of_lenient lenient).1]
  rfl

theorem mem_offsets_iff (n : Nat) :
    n ∈ (skipped source).map Unrecognized.offset ↔
      ∃ found, .unrecognized found ∈ Place.items ⟨0, source.toList⟩ ∧ found.offset = n := by
  simp only [skipped_eq, List.mem_map, List.mem_filterMap]
  constructor
  · rintro ⟨found, ⟨item, inside, same⟩, rfl⟩
    cases item with
    | token => cases same
    | unrecognized other =>
      cases same
      exact ⟨_, inside, rfl⟩
  · rintro ⟨found, inside, rfl⟩
    exact ⟨found, ⟨_, inside, rfl⟩, rfl⟩

/-- What a lenient scan passes over might as well have been spaces. -/
theorem scan_blankOut : scan false (blankOut source) = scan true source := by
  have marks : Place.IsMarkedBy ⟨0, source.toList⟩ ((skipped source).map Unrecognized.offset) :=
    fun n _ => mem_offsets_iff source n
  have holds := marks.holds_blankOut 0
  have blanked : (blankOut source).toList = _ := String.toList_ofList
  rw [← blanked] at holds
  rw [scan_of_holds _ holds, scan_lenient]

/-- A strict scan stops at the first character that a lenient one passes over. -/
theorem scan_error_iff (found : Unrecognized) :
    scan false source = .error found ↔ (skipped source).head? = some found := by
  rw [skipped_eq]
  rcases scan_strict source with
    ⟨tokens, holds, scanned⟩ | ⟨before, first, behind, split, all, failed⟩
  · rw [scanned, Item.filterMap_unrecognized?_eq_nil holds.recognized]
    simp
  · rw [failed, split, List.filterMap_append, Item.filterMap_unrecognized?_eq_nil all]
    simp [Item.unrecognized?]

end Modes

section Evaluation

variable {α : Type} [Arithmetic α]

/-- The result is told by the scan alone. -/
theorem evaluate_result_congr {lenient lenient' : Bool} {source source' : String}
    (same : scan lenient source = scan lenient' source') :
    (evaluate lenient source : Evaluation α).result = (evaluate lenient' source').result := by
  cases scanned : scan lenient source with
  | ok tokens =>
    rw [evaluate_result_of_scan scanned, evaluate_result_of_scan (same.symm.trans scanned)]
  | error found =>
    rw [evaluate_result_of_scan_error scanned,
      evaluate_result_of_scan_error (same.symm.trans scanned)]

/-- Reading an expression is worth no warning. -/
theorem warnings_evaluateTokens (records : List (Record α)) (tokens : List Token) :
    (evaluateTokens records tokens).records.filter (·.level = .warn) =
      records.filter (·.level = .warn) := by
  have folds (folds : List (Fold α)) :
      (folds.map Record.folding).filter (·.level = .warn) = [] := by
    refine List.filter_eq_nil_iff.mpr fun record inside => ?_
    obtain ⟨fold, _, rfl⟩ := List.mem_map.mp inside
    exact Bool.false_ne_true
  simp only [evaluateTokens]
  cases ((Parser.ofTokens tokens).parse : Reading α α).result with
  | ok value =>
    simp only [List.filter_append, folds, List.append_nil]
    exact List.append_nil _
  | error fault => simp only [List.filter_append, folds, List.append_nil]

/-- A lenient evaluation warns of each character that it passes over, and of nothing else. -/
theorem warnings_evaluate (source : String) :
    (evaluate true source : Evaluation α).records.filter (·.level = .warn) =
      (skipped source).map .skipping := by
  have lenient : (Scanner.ofString true source).lenient = true := rfl
  have tokens := (Scanner.rest_of_lenient lenient).2
  have warned (items : List Item) :
      (items.filterMap (Record.ofItem? true : Item → Option (Record α))).filter (·.level = .warn) =
        (items.filterMap Item.unrecognized?).map .skipping := by
    induction items with
    | nil => rfl
    | cons item items ih =>
      cases item with
      | token => exact ih
      | unrecognized found => exact congrArg (.skipping found :: ·) ih
  simp only [evaluate, tokens, warnings_evaluateTokens]
  exact warned _

/-- The modes differ by the characters that a lenient scan passes over, and by nothing else: a
strict scan fails at the first of them, the same that is warned of first, and only there; without
them both give the same; and with spaces in their place a strict scan gives what the lenient one
gave. -/
theorem modes_differ_by_skipped (source : String) :
    (∃ tokens, scan true source = .ok tokens) ∧
      (∀ found, scan false source = .error found ↔ (skipped source).head? = some found) ∧
      (evaluate true source : Evaluation α).records.filter (·.level = .warn) =
        (skipped source).map .skipping ∧
      (∀ tokens, scan false source = .ok tokens → scan true source = .ok tokens ∧
        (evaluate false source : Evaluation α).result = (evaluate true source).result) ∧
      scan false (blankOut source) = scan true source ∧
      (evaluate true source : Evaluation α).result = (evaluate false (blankOut source)).result := by
  have lenient := scan_lenient source
  refine ⟨⟨_, lenient⟩, scan_error_iff source, warnings_evaluate source, ?_,
    scan_blankOut source, evaluate_result_congr (scan_blankOut source).symm⟩
  intro tokens scanned
  have same : scan true source = .ok tokens := by
    rw [lenient, tokens_of_scan source scanned]
  exact ⟨same, evaluate_result_congr (scanned.trans same.symm)⟩

end Evaluation

end Reckoner
