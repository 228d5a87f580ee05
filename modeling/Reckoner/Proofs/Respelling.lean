import Reckoner.Proofs.Passing

namespace Reckoner

/-- Tokens as they may be written: each behind some blanks, of which only the first may do without,
and with more blanks at the end. -/
structure Spacing where
  parts : List (String × Token)
  final : String
  spelled : ∀ part ∈ parts, part.2.IsSpelled
  blank : ∀ gap ∈ final :: parts.map Prod.fst, ∀ c ∈ gap.toList, Text.isBlank c = true
  apart : ∀ gap ∈ (parts.map Prod.fst).tail, gap ≠ ""

/-- The text of tokens behind the gaps they come with, up to the last gap. -/
def spaced (parts : List (String × Token)) (final : String) : String :=
  String.join (parts.map fun part => part.1 ++ part.2.lexeme) ++ final

namespace Spacing

def tokens (spacing : Spacing) : List Token :=
  spacing.parts.map Prod.snd

def text (spacing : Spacing) : String :=
  spaced spacing.parts spacing.final

end Spacing

section Spaced

variable {parts : List (String × Token)} {final : String}

@[simp] theorem toList_spaced_cons (gap : String) (token : Token) :
    (spaced ((gap, token) :: parts) final).toList =
      gap.toList ++ (token.lexeme.toList ++ (spaced parts final).toList) := by
  simp [spaced]

/-- Where every token has blanks before it, the text begins with a blank. -/
theorem isBlank_head?_spaced
    (blank : ∀ gap ∈ final :: parts.map Prod.fst, ∀ c ∈ gap.toList, Text.isBlank c = true)
    (apart : ∀ gap ∈ parts.map Prod.fst, gap ≠ "") :
    ∀ c ∈ (spaced parts final).toList.head?, Text.isBlank c = true := by
  intro c first
  cases parts with
  | nil =>
    have inside : c ∈ final.toList := by simpa [spaced] using List.mem_of_mem_head? first
    exact blank final (List.mem_cons_self ..) c inside
  | cons part parts =>
    obtain ⟨gap, token⟩ := part
    cases chars : gap.toList with
    | nil => exact absurd (String.toList_eq_nil_iff.mp chars) (apart gap (List.mem_cons_self ..))
    | cons d rest =>
      rw [toList_spaced_cons, chars] at first
      cases first
      refine blank gap ?_ c ?_
      · simp
      · rw [chars]
        exact List.mem_cons_self ..

/-- A blank ends every token. -/
theorem Token.endsBefore_of_isBlank {token : Token} {behind : List Char}
    (blank : ∀ c ∈ behind.head?, Text.isBlank c = true) : token.EndsBefore behind := by
  cases token with
  | number lexeme =>
    intro last _ c first
    exact Numeral.extend?_blank (blank c first) last
  | _ => exact trivial

/-- Tokens behind gaps are found again, one gap and one token after the other. -/
theorem Place.holds_spaced (spelled : ∀ part ∈ parts, part.2.IsSpelled)
    (blank : ∀ gap ∈ final :: parts.map Prod.fst, ∀ c ∈ gap.toList, Text.isBlank c = true)
    (apart : ∀ gap ∈ (parts.map Prod.fst).tail, gap ≠ "") (offset : Nat) :
    Holds ⟨offset, (spaced parts final).toList⟩ (parts.map Prod.snd) := by
  induction parts generalizing offset with
  | nil =>
    refine holds_of_blanks fun c inside => ?_
    exact blank final (List.mem_cons_self ..) c (by simpa [spaced] using inside)
  | cons part parts ih =>
    obtain ⟨gap, token⟩ := part
    obtain ⟨here, later⟩ := List.forall_mem_cons.mp spelled
    obtain ⟨last, before⟩ := List.forall_mem_cons.mp blank
    obtain ⟨begins, between⟩ := List.forall_mem_cons.mp before
    have blank' := List.forall_mem_cons.mpr ⟨last, between⟩
    -- The gaps behind the first are not empty, so a blank follows the token or nothing does.
    have ends : token.EndsBefore (spaced parts final).toList :=
      Token.endsBefore_of_isBlank (isBlank_head?_spaced blank' apart)
    have rest := ih later blank' fun gap inside => apart gap (List.mem_of_mem_tail inside)
    rw [toList_spaced_cons]
    exact Holds.blanks_append begins (Holds.token_append here ends (rest _))

end Spaced

/-- Tokens that are written with blanks between them are scanned as they are, in both modes. -/
theorem Spacing.scan_text (spacing : Spacing) (lenient : Bool) :
    scan lenient spacing.text = .ok spacing.tokens :=
  scan_of_holds _ (Place.holds_spaced spacing.spelled spacing.blank spacing.apart 0) lenient

/-- Tokens that a source is scanned to are spelled as tokens are. -/
theorem isSpelled_of_scan {lenient : Bool} {source : String} {tokens : List Token}
    (scanned : scan lenient source = .ok tokens) : ∀ token ∈ tokens, token.IsSpelled := by
  intro token inside
  rw [← tokens_of_scan source scanned] at inside
  obtain ⟨item, member, same⟩ := List.mem_filterMap.mp inside
  cases Place.isSpelled_items _ item member with
  | token spelled =>
    cases same
    exact spelled
  | unrecognized _ => cases same

section Space

/-- Tokens with one space between any two. -/
def oneSpaceApart : List Token → List (String × Token)
  | [] => []
  | token :: tokens => ("", token) :: tokens.map (" ", ·)

theorem snd_oneSpaceApart (tokens : List Token) : (oneSpaceApart tokens).map Prod.snd = tokens := by
  cases tokens with
  | nil => rfl
  | cons token tokens => simp [oneSpaceApart, Function.comp_def]

theorem spaced_oneSpaceApart (tokens : List Token) :
    spaced (oneSpaceApart tokens) "" = " ".intercalate (tokens.map Token.lexeme) := by
  cases tokens with
  | nil => simp [oneSpaceApart, spaced]
  | cons token tokens =>
    induction tokens generalizing token with
    | nil => simp [oneSpaceApart, spaced]
    | cons later tokens ih =>
      have rest := ih later
      simp only [oneSpaceApart, spaced, List.map_cons, String.join_cons, String.empty_append,
        String.append_empty, String.intercalate_cons_cons, String.append_assoc] at rest ⊢
      rw [← rest]

/-- Spelled tokens may be written with one space between any two. -/
def Spacing.bySpaces (tokens : List Token) (spelled : ∀ token ∈ tokens, token.IsSpelled) :
    Spacing where
  parts := oneSpaceApart tokens
  final := ""
  spelled := by
    intro part inside
    refine spelled part.2 ?_
    rw [← snd_oneSpaceApart tokens]
    exact List.mem_map_of_mem inside
  blank := by
    cases tokens with
    | nil => simp [oneSpaceApart]
    | cons token tokens => simp [oneSpaceApart, Text.isBlank_space]
  apart := by
    cases tokens with
    | nil => nofun
    | cons token tokens => simp [oneSpaceApart]

end Space

/-- Tokens survive being written and scanned again. Those that are spelled as tokens are, with
blanks between them, come back in both modes; and those that come from any source are spelled so,
and come back when they are written with one space between any two. -/
theorem scan_respelled :
    (∀ (spacing : Spacing) (lenient : Bool), scan lenient spacing.text = .ok spacing.tokens) ∧
      ∀ (lenient : Bool) (source : String) (tokens : List Token),
        scan lenient source = .ok tokens →
          (∀ token ∈ tokens, token.IsSpelled) ∧
            scan false (" ".intercalate (tokens.map Token.lexeme)) = .ok tokens := by
  refine ⟨Spacing.scan_text, fun lenient source tokens scanned => ?_⟩
  have spelled := isSpelled_of_scan scanned
  have again := (Spacing.bySpaces tokens spelled).scan_text false
  have text : (Spacing.bySpaces tokens spelled).text = _ := spaced_oneSpaceApart tokens
  have same : (Spacing.bySpaces tokens spelled).tokens = tokens := snd_oneSpaceApart tokens
  rw [text, same] at again
  exact ⟨spelled, again⟩

end Reckoner
