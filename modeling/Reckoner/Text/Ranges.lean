namespace Reckoner.Text

/-- Whether `n` lies in one of some ranges, whose ends both belong to them. The ranges are in
ascending order, so the search is over at the first that begins above `n`. -/
def inRanges (n : Nat) : List (Nat × Nat) → Bool
  | [] => false
  | range :: rest => range.1 ≤ n && (n ≤ range.2 || inRanges n rest)

/-- Whether ranges begin at `floor` or above, and each ends before the next begins. -/
def areAscending (floor : Nat) : List (Nat × Nat) → Bool
  | [] => true
  | range :: rest => floor ≤ range.1 && range.1 ≤ range.2 && areAscending (range.2 + 1) rest

theorem floor_le_of_areAscending {floor : Nat} {ranges : List (Nat × Nat)} {range : Nat × Nat}
    (ascending : areAscending floor ranges = true) (member : range ∈ ranges) : floor ≤ range.1 := by
  induction ranges generalizing floor with
  | nil => cases member
  | cons first rest ih =>
    simp only [areAscending, Bool.and_eq_true, decide_eq_true_eq] at ascending
    rcases List.mem_cons.mp member with rfl | later
    · exact ascending.1.1
    · have above := ih ascending.2 later
      omega

/-- The search that is over early finds the same as one through all ranges. -/
theorem inRanges_iff {n floor : Nat} {ranges : List (Nat × Nat)}
    (ascending : areAscending floor ranges = true) :
    inRanges n ranges = true ↔ ∃ range ∈ ranges, range.1 ≤ n ∧ n ≤ range.2 := by
  induction ranges generalizing floor with
  | nil => simp [inRanges]
  | cons first rest ih =>
    simp only [areAscending, Bool.and_eq_true, decide_eq_true_eq] at ascending
    simp only [inRanges, Bool.and_eq_true, Bool.or_eq_true, decide_eq_true_eq, ih ascending.2]
    constructor
    · rintro ⟨begun, inside | ⟨range, later, bounds⟩⟩
      · exact ⟨first, List.mem_cons_self, begun, inside⟩
      · exact ⟨range, List.mem_cons_of_mem _ later, bounds⟩
    · rintro ⟨range, member, bounds⟩
      rcases List.mem_cons.mp member with rfl | later
      · exact ⟨bounds.1, Or.inl bounds.2⟩
      · have above := floor_le_of_areAscending ascending.2 later
        exact ⟨by omega, Or.inr ⟨range, later, bounds⟩⟩

/-- Ranges hold of nothing below the floor that they begin at. -/
theorem inRanges_of_lt {n floor : Nat} {ranges : List (Nat × Nat)}
    (ascending : areAscending floor ranges = true) (below : n < floor) :
    inRanges n ranges = false := by
  refine Bool.eq_false_iff.mpr fun inside => ?_
  obtain ⟨range, member, begun, _⟩ := (inRanges_iff ascending).mp inside
  have above := floor_le_of_areAscending ascending member
  omega

end Reckoner.Text
