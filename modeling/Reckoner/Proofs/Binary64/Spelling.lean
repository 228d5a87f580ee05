import Reckoner.Proofs.Readability

namespace Reckoner

/-- An exponent with its digits, or none at all. -/
inductive IsExponent : List Char → Prop
  | missing : IsExponent []
  | written (part : ExponentText) : part.digits.chars ≠ [] → IsExponent part.chars

/-- Digits with an exponent behind them. There may be a point among the digits, as long as there is
a digit before it or behind it. -/
inductive IsDecimal : List Char → Prop
  | whole (whole : Digits) {exponent} : whole.chars ≠ [] → IsExponent exponent →
      IsDecimal (whole.chars ++ exponent)
  | pointed (whole fraction : Digits) {exponent} : whole.chars ≠ [] ∨ fraction.chars ≠ [] →
      IsExponent exponent → IsDecimal (whole.chars ++ '.' :: (fraction.chars ++ exponent))

/-- A number without its sign: a decimal, or a name in letters of either case. -/
inductive IsMagnitude : List Char → Prop
  | named {name text} : name ∈ ["inf", "infinity", "nan"] → text.map Char.toLower = name.toList →
      IsMagnitude text
  | decimal {text} : IsDecimal text → IsMagnitude text

/-- The grammar of the texts that are numbers. -/
inductive IsNumber : List Char → Prop
  | unsigned {text} : IsMagnitude text → IsNumber text
  | signed {sign text} : sign = '+' ∨ sign = '-' → IsMagnitude text → IsNumber (sign :: text)

/-- Neither a digit nor a point begins an exponent. -/
theorem IsExponent.foreign {text : List Char} (exponent : IsExponent text) :
    ∀ c ∈ text.head?, c.isDigit = false ∧ c ≠ '.' := by
  cases exponent with
  | missing => exact nofun
  | written part _ =>
    rintro _ ⟨⟩
    rcases part.isMarker with marker | marker <;> rw [marker] <;> decide

/-- No sign begins a magnitude. -/
theorem IsMagnitude.unsigned {text : List Char} (magnitude : IsMagnitude text) :
    ∀ c ∈ text.head?, c ≠ '+' ∧ c ≠ '-' := by
  intro c first
  have digit (isDigit : c.isDigit = true) : c ≠ '+' ∧ c ≠ '-' := by
    constructor <;> (rintro rfl; cases isDigit)
  cases magnitude with
  | named member lower =>
    have letter : ∀ name ∈ ["inf", "infinity", "nan"],
        name.toList.head? ≠ some '+' ∧ name.toList.head? ≠ some '-' := by decide
    have lowered := congrArg List.head? lower
    rw [List.head?_map, Option.mem_def.mp first, Option.map_some] at lowered
    obtain ⟨noPlus, noMinus⟩ := letter _ member
    constructor
    · rintro rfl
      exact noPlus lowered.symm
    · rintro rfl
      exact noMinus lowered.symm
  | decimal decimal =>
    cases decimal with
    | whole whole begun _ =>
      obtain ⟨d, chars, split⟩ := List.exists_cons_of_ne_nil begun
      rw [split] at first
      cases first
      exact digit (whole.isDigit c (split ▸ List.mem_cons_self ..))
    | pointed whole _ _ _ =>
      cases split : whole.chars with
      | nil =>
        rw [split] at first
        cases first
        decide
      | cons d chars =>
        rw [split] at first
        cases first
        exact digit (whole.isDigit c (split ▸ List.mem_cons_self ..))

namespace Decimal

theorem natural?_isSome_iff {text : List Char} : (natural? text).isSome = true ↔
    ∃ digits : Digits, digits.chars ≠ [] ∧ text = digits.chars := by
  constructor
  · intro read
    unfold natural? at read
    split at read
    · rename_i digits
      exact ⟨⟨text, List.all_eq_true.mp digits.2⟩, digits.1, rfl⟩
    · cases read
  · rintro ⟨digits, begun, rfl⟩
    rw [natural?_digits begun, Option.isSome_some]

theorem isExponent_of_exponent? {text : List Char} (read : (exponent? text).isSome = true) :
    IsExponent text := by
  cases text with
  | nil => exact .missing
  | cons marker rest =>
    simp only [exponent?] at read
    split at read
    · rename_i isMarker
      have part (sign : Option Char) (isSign : ∀ c ∈ sign, c = '+' ∨ c = '-') {text : List Char}
          (read : (natural? text).isSome = true) : IsExponent (marker :: sign.toList ++ text) := by
        obtain ⟨digits, begun, rfl⟩ := natural?_isSome_iff.mp read
        exact .written ⟨marker, sign, digits, isMarker, isSign⟩ begun
      unfold signedNatural? at read
      split at read
      · exact part (some '-') (by simp) (by simpa [Option.isSome_bind] using read)
      · exact part (some '+') (by simp) (by simpa [Option.isSome_bind] using read)
      · exact part none nofun (by simpa [Option.isSome_bind] using read)
    · cases read

/-- Of the exponents those are read that have digits. -/
theorem isSome_exponent?_iff {text : List Char} :
    (exponent? text).isSome = true ↔ IsExponent text := by
  refine ⟨isExponent_of_exponent?, fun exponent => ?_⟩
  cases exponent with
  | missing => rfl
  | written part begun => rw [exponent?_chars begun, Option.isSome_some]

/-- Digits are read up to what is none, and behind a point again. -/
theorem isDecimal_of_read? {text : List Char} (read : (read? text).isSome = true) :
    IsDecimal text := by
  have front : text.takeWhile Char.isDigit ++ text.dropWhile Char.isDigit = text :=
    List.takeWhile_append_dropWhile
  have digits (text : List Char) : ∀ c ∈ text.takeWhile Char.isDigit, c.isDigit = true :=
    fun c inside => List.all_eq_true.mp List.all_takeWhile c inside
  unfold read? at read
  dsimp only at read
  split at read
  · cases read
  · rename_i begun
    rw [Option.isSome_map, isSome_exponent?_iff] at read
    rw [← front]
    generalize rest : text.dropWhile Char.isDigit = rest' at read begun ⊢
    unfold splitFraction at read begun
    split at read
    · rename_i behind
      have back : behind.takeWhile Char.isDigit ++ behind.dropWhile Char.isDigit = behind :=
        List.takeWhile_append_dropWhile
      rw [← back]
      exact .pointed ⟨_, digits text⟩ ⟨_, digits behind⟩ (by simpa [or_iff_not_and_not] using begun) read
    · exact .whole ⟨_, digits text⟩ (by simpa using begun) read

theorem isSome_read?_iff {text : List Char} : (read? text).isSome = true ↔ IsDecimal text := by
  refine ⟨isDecimal_of_read?, fun decimal => ?_⟩
  cases decimal with
  | @whole digits exponent begun isExponent =>
    have foreign := isExponent.foreign
    obtain ⟨front, rest⟩ := span_digits digits fun c first => (foreign c first).1
    have split : splitFraction exponent = ([], exponent) := by
      unfold splitFraction
      split
      · exact absurd rfl (foreign '.' rfl).2
      · rfl
    unfold read?
    rw [front, rest, split]
    simp only [begun, false_and, if_false, Option.isSome_map]
    exact isSome_exponent?_iff.mpr isExponent
  | @pointed digits fraction exponent begun isExponent =>
    have foreign := isExponent.foreign
    have point : ∀ c ∈ ('.' :: (fraction.chars ++ exponent)).head?, c.isDigit = false := by
      rintro _ ⟨⟩
      rfl
    obtain ⟨front, rest⟩ := span_digits digits point
    obtain ⟨front', rest'⟩ := span_digits fraction fun c first => (foreign c first).1
    unfold read?
    rw [front, rest, splitFraction, front', rest']
    dsimp only
    rw [if_neg (by simpa [or_iff_not_and_not] using begun), Option.isSome_map]
    exact isSome_exponent?_iff.mpr isExponent

end Decimal

namespace Binary64

theorem isSome_readMagnitude?_iff {text : List Char} :
    (readMagnitude? text).isSome = true ↔ IsMagnitude text := by
  unfold readMagnitude?
  split
  · rename_i named found
    have name := List.find?_some found
    rw [decide_eq_true_eq] at name
    have member : named.1 ∈ namedWords.map Prod.fst :=
      List.mem_map_of_mem (List.mem_of_find?_eq_some found)
    exact iff_of_true rfl (.named member name.symm)
  · rename_i unnamed
    rw [Option.isSome_map, Decimal.isSome_read?_iff]
    refine ⟨.decimal, fun magnitude => ?_⟩
    cases magnitude with
    | decimal decimal => exact decimal
    | named member lower =>
      obtain ⟨named, inside, rfl⟩ := List.mem_map.mp (show _ ∈ namedWords.map Prod.fst from member)
      exact absurd (decide_eq_true lower.symm) (List.find?_eq_none.mp unnamed named inside)

/-- The texts that are read are those of the grammar. -/
theorem isSome_read?_iff {text : String} :
    (read? text).isSome = true ↔ IsNumber text.toList := by
  have behind {sign : Char} {rest : List Char} (isSign : sign = '+' ∨ sign = '-') :
      IsNumber (sign :: rest) ↔ IsMagnitude rest := by
    refine ⟨fun number => ?_, .signed isSign⟩
    cases number with
    | signed _ magnitude => exact magnitude
    | unsigned magnitude =>
      obtain ⟨noPlus, noMinus⟩ := magnitude.unsigned sign rfl
      exact (isSign.elim noPlus noMinus).elim
  unfold read?
  split
  · rename_i chars
    rw [Option.isSome_map, isSome_readMagnitude?_iff, chars, behind (Or.inr rfl)]
  · rename_i chars
    rw [Option.isSome_map, isSome_readMagnitude?_iff, chars, behind (Or.inl rfl)]
  · rename_i noMinus noPlus
    rw [Option.isSome_map, isSome_readMagnitude?_iff]
    refine ⟨.unsigned, fun number => ?_⟩
    generalize chars : text.toList = all at number
    cases number with
    | unsigned magnitude => exact magnitude
    | signed isSign _ =>
      rcases isSign with rfl | rfl
      · exact (noPlus _ chars).elim
      · exact (noMinus _ chars).elim

end Binary64

end Reckoner
