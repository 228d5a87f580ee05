import Reckoner.Proofs.Layout

namespace Reckoner

namespace Text

/-- A character that stands between quotes as it is. -/
structure IsPlain (c : Char) : Prop where
  above : 0x20 ≤ c.toNat
  below : c.toNat < 0x7F
  noQuote : c ≠ '"'
  noBackslash : c ≠ '\\'

/-- The space is the only blank that is plain. -/
theorem isBlank_of_isPlain {c : Char} (plain : IsPlain c) (inked : c ≠ ' ') :
    isBlank c = false := by
  refine Bool.eq_false_iff.mpr fun blank => ?_
  obtain ⟨range, member, begun, ended⟩ := (inRanges_iff blankRanges_ascending).mp blank
  have code : c.toNat ≠ 0x20 := fun same => inked (Char.toNat_inj.mp same)
  have above := plain.above
  have below := plain.below
  simp only [blankRanges, List.mem_cons, List.not_mem_nil, or_false] at member
  rcases member with rfl | rfl | rfl | rfl | rfl | rfl | rfl | rfl | rfl | rfl <;>
    dsimp only at begun ended <;> omega

/-- No table of characters that are not seen begins so low. -/
theorem isShown_of_isPlain {c : Char} (plain : IsPlain c) : isShown c = true := by
  have above := plain.above
  have below := plain.below
  have control : isControl c = false := by
    simp only [isControl, Bool.or_eq_false_iff, Bool.and_eq_false_iff, decide_eq_false_iff_not]
    omega
  have blank : c = ' ' ∨ isBlank c = false := by
    by_cases space : c = ' '
    · exact Or.inl space
    · exact Or.inr (isBlank_of_isPlain plain space)
  simp only [isShown, control, isFormat, isIgnorable, isPrivateUse, isUnassigned, isExtender,
    inRanges_of_lt formatRanges_ascending below, inRanges_of_lt ignorableRanges_ascending below,
    inRanges_of_lt privateUseRanges_ascending below, inRanges_of_lt unassignedRanges_ascending below,
    inRanges_of_lt extenderRanges_ascending below]
  rcases blank with space | inked
  · simp [space]
  · simp [inked]

theorem quotedChar_of_isPlain {c : Char} (plain : IsPlain c) :
    quotedChar c = String.singleton c := by
  have above := plain.above
  have escaped (d : Char) (control : d.toNat < 0x20) : c ≠ d := by
    rintro rfl
    omega
  simp only [quotedChar, plain.noQuote, plain.noBackslash, escaped '\t' (by decide),
    escaped '\r' (by decide), escaped '\n' (by decide), escaped '\x00' (by decide),
    isShown_of_isPlain plain, if_false, if_true]

/-- A plain text is quoted by the quotes alone. -/
theorem quoted_of_isPlain {text : String} (plain : ∀ c ∈ text.toList, IsPlain c) :
    quoted text = "\"" ++ text ++ "\"" := by
  have chars : String.join (text.toList.map quotedChar) = text := by
    rw [List.map_congr_left fun c inside => quotedChar_of_isPlain (plain c inside),
      ← String.toList_inj]
    simp [List.flatMap_map]
  rw [quoted, chars]

theorem isPlain_of_isDigit {c : Char} (digit : c.isDigit = true) : IsPlain c := by
  have bounds : 48 ≤ c.toNat ∧ c.toNat ≤ 57 := Char.isDigit_iff_toNat.mp digit
  refine ⟨by omega, by omega, ?_, ?_⟩ <;> (rintro rfl; cases digit)

end Text

open Text

/-- A numeral has digits, a point, a marker and a sign in it, and they are all plain. -/
theorem NumeralText.isPlain (text : NumeralText) : ∀ c ∈ text.chars, IsPlain c := by
  have digits (part : Digits) : ∀ c ∈ part.chars, IsPlain c := fun c inside =>
    isPlain_of_isDigit (part.isDigit c inside)
  have fraction : ∀ c ∈ text.fractionChars, IsPlain c := by
    unfold fractionChars
    cases text.fraction with
    | none => exact List.forall_mem_nil _
    | some part => exact List.forall_mem_cons.mpr ⟨by constructor <;> decide, digits part⟩
  have exponent : ∀ c ∈ text.exponentChars, IsPlain c := by
    unfold exponentChars
    cases text.exponent with
    | none => exact List.forall_mem_nil _
    | some part =>
      have marker : IsPlain part.marker := by
        rcases part.isMarker with marker | marker <;> rw [marker] <;> constructor <;> decide
      have sign : ∀ c ∈ part.sign.toList, IsPlain c := by
        intro c inside
        rcases part.isSign c (Option.mem_toList.mp inside) with rfl | rfl <;>
          constructor <;> decide
      exact List.forall_mem_append.mpr
        ⟨List.forall_mem_cons.mpr ⟨marker, sign⟩, digits part.digits⟩
  exact List.forall_mem_append.mpr
    ⟨digits text.whole, List.forall_mem_append.mpr ⟨fraction, exponent⟩⟩

namespace Token

/-- How a token is shown, where its text needs no escape. -/
def shown : Token → String
  | number lexeme => "Number(\"" ++ lexeme ++ "\")"
  | operator symbol => "Op(\"" ++ symbol ++ "\")"
  | opening => "LParen"
  | closing => "RParen"

/-- No token that is found in a source needs an escape. -/
theorem describe_of_isSpelled {token : Token} (spelled : token.IsSpelled) :
    token.describe = token.shown := by
  have around (kind text : String) (plain : ∀ c ∈ text.toList, IsPlain c) :
      kind ++ "(" ++ Text.quoted text ++ ")" = kind ++ "(\"" ++ text ++ "\")" := by
    rw [quoted_of_isPlain plain, ← String.toList_inj]
    simp
  cases spelled with
  | number text => exact around "Number" text.lexeme (text.toList_lexeme ▸ text.isPlain)
  | operator op =>
    refine around "Op" (String.singleton op.symbol) ?_
    rw [String.toList_singleton, List.forall_mem_singleton]
    cases op <;> constructor <;> decide
  | opening => rfl
  | closing => rfl

end Token

end Reckoner
