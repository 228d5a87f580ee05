import Reckoner.Proofs.Grammar

namespace Reckoner

/-- The most groups that are open at once, if none is open before the tokens. -/
def nesting : List Token → Nat
  | [] => 0
  | .opening :: tokens => nesting tokens + 1
  | .closing :: tokens => nesting tokens - 1
  | .number _ :: tokens | .operator _ :: tokens => nesting tokens

/-- Tokens are nested at most so deep as their opening parentheses outnumber the closing ones up to
any point. -/
theorem nesting_le_iff {tokens : List Token} {levels : Nat} :
    nesting tokens ≤ levels ↔
      ∀ before, before <+: tokens → before.count .opening ≤ before.count .closing + levels := by
  induction tokens generalizing levels with
  | nil =>
    refine iff_of_true (Nat.zero_le levels) fun before part => ?_
    rw [List.prefix_nil.mp part]
    exact Nat.zero_le _
  | cons token tokens ih =>
    -- A beginning is empty, or it is the first token and a beginning of the others.
    have beginnings : (∀ before, before <+: token :: tokens →
        before.count .opening ≤ before.count .closing + levels) ↔
        ∀ before, before <+: tokens →
          (token :: before).count .opening ≤ (token :: before).count .closing + levels := by
      constructor
      · exact fun all before part => all _ ((List.prefix_cons_inj token).mpr part)
      · intro all before part
        rcases List.prefix_cons_iff.mp part with rfl | ⟨rest, rfl, shorter⟩
        · exact Nat.zero_le _
        · exact all rest shorter
    rw [beginnings]
    cases token with
    | number lexeme => simpa [nesting] using ih
    | operator symbol => simpa [nesting] using ih
    | closing =>
      have lower := @ih (levels + 1)
      simp only [nesting, Nat.sub_le_iff_le_add, lower, List.count_cons]
      refine forall₂_congr fun before _ => ?_
      simp
      omega
    | opening =>
      cases levels with
      | zero =>
        refine iff_of_false (Nat.not_succ_le_zero _) fun all => ?_
        exact absurd (all [] List.nil_prefix) (by decide)
      | succ levels =>
        simp only [nesting, Nat.succ_le_succ_iff, ih, List.count_cons]
        refine forall₂_congr fun before _ => ?_
        simp
        omega

namespace Derives

variable {α : Type} [Arithmetic α] {phrase : Phrase} {levels limit : Nat} {tokens : List Token}
  {value : α}

/-- The parentheses of a phrase come in pairs. -/
theorem count_eq (derives : Derives phrase levels tokens value) :
    tokens.count .opening = tokens.count .closing := by
  induction derives with
  | number _ => rfl
  | group _ ih => simp [List.count_append, ih]
  | plain _ ih | factor _ ih | summand _ ih => exact ih
  | negated _ ih => simpa using ih
  | product _ _ first second | quotient _ _ first second | sum _ _ first second
  | difference _ _ first second => simp [List.count_append, first, second]

/-- Behind a phrase no group is open that was not open before it. -/
theorem nesting_append (derives : Derives phrase levels tokens value) (behind : List Token) :
    nesting (tokens ++ behind) = max (nesting tokens) (nesting behind) := by
  induction derives generalizing behind with
  | number _ => exact (Nat.zero_max _).symm
  | group _ ih =>
    simp only [List.cons_append, List.append_assoc, nesting, ih, List.nil_append]
    omega
  | plain _ ih | negated _ ih | factor _ ih | summand _ ih => exact ih behind
  | product _ _ first second | quotient _ _ first second | sum _ _ first second
  | difference _ _ first second =>
    simp only [List.append_assoc, List.cons_append, first, nesting, second, Nat.max_assoc]

/-- The nesting of a group is one more than that of the tokens in it. -/
theorem nesting_group (derives : Derives phrase levels tokens value) :
    nesting (.opening :: tokens ++ [.closing]) = nesting tokens + 1 := by
  rw [List.cons_append, nesting, derives.nesting_append]
  exact congrArg (· + 1) (Nat.max_zero _)

/-- A phrase is nested no deeper than was allowed for it. -/
theorem nesting_le (derives : Derives phrase levels tokens value) : nesting tokens ≤ levels := by
  induction derives with
  | number _ => exact Nat.zero_le _
  | group inner ih =>
    rw [inner.nesting_group]
    exact Nat.succ_le_succ ih
  | plain _ ih | negated _ ih | factor _ ih | summand _ ih => exact ih
  | product first _ before behind | quotient first _ before behind
  | sum first _ before behind | difference first _ before behind =>
    rw [first.nesting_append]
    exact Nat.max_le.mpr ⟨before, behind⟩

/-- A phrase needs no more levels than it is nested deep. -/
theorem of_nesting_le (derives : Derives phrase limit tokens value)
    (within : nesting tokens ≤ levels) : Derives phrase levels tokens value := by
  induction derives generalizing levels with
  | number read => exact .number read
  | group inner ih =>
    rw [inner.nesting_group] at within
    cases levels with
    | zero => exact absurd within (Nat.not_succ_le_zero _)
    | succ levels => exact .group (ih (Nat.le_of_succ_le_succ within))
  | plain _ ih => exact .plain (ih within)
  | negated _ ih => exact .negated (ih within)
  | factor _ ih => exact .factor (ih within)
  | summand _ ih => exact .summand (ih within)
  | product left _ first second =>
    obtain ⟨before, behind⟩ := Nat.max_le.mp (left.nesting_append _ ▸ within)
    exact .product (first before) (second behind)
  | quotient left _ first second =>
    obtain ⟨before, behind⟩ := Nat.max_le.mp (left.nesting_append _ ▸ within)
    exact .quotient (first before) (second behind)
  | sum left _ first second =>
    obtain ⟨before, behind⟩ := Nat.max_le.mp (left.nesting_append _ ▸ within)
    exact .sum (first before) (second behind)
  | difference left _ first second =>
    obtain ⟨before, behind⟩ := Nat.max_le.mp (left.nesting_append _ ▸ within)
    exact .difference (first before) (second behind)

/-- More levels do no harm. -/
theorem mono (derives : Derives phrase levels tokens value) (more : levels ≤ limit) :
    Derives phrase limit tokens value :=
  derives.of_nesting_le (Nat.le_trans derives.nesting_le more)

end Derives

end Reckoner
