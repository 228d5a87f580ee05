import Reckoner.Session

namespace Reckoner

theorem fromUTF8?_bytes (text : String) :
    String.fromUTF8? text.toUTF8.data.toList.toByteArray = some text := by
  have bytes : text.toUTF8.data.toList.toByteArray = text.toUTF8 := by
    refine ByteArray.ext ?_
    rw [List.data_toByteArray]
  rw [bytes]
  exact dif_pos text.isValidUTF8

namespace Session

/-- A stream is split at its line feeds. A carriage return before a line feed is part of the line no
more than the line feed is, and the last line may lack both. -/
inductive AreLines : List UInt8 → List (List UInt8) → Prop
  | nothing : AreLines [] []
  | unended {line} : line ≠ [] → 10 ∉ line → AreLines line [line]
  | fed {line rest lines} : 10 ∉ line → line.getLast? ≠ some 13 → AreLines rest lines →
      AreLines (line ++ 10 :: rest) (line :: lines)
  | returned {line rest lines} : 10 ∉ line → AreLines rest lines →
      AreLines (line ++ 13 :: 10 :: rest) (line :: lines)

variable {line : List UInt8}

theorem endLine_unreturned {read : List UInt8} (unreturned : read.head? ≠ some 13) :
    endLine read = read.reverse := by
  unfold endLine
  split
  · exact absurd rfl unreturned
  · rfl

theorem lines_append (unfed : 10 ∉ line) (read rest : List UInt8) :
    lines read (line ++ rest) = lines (line.reverse ++ read) rest := by
  induction line generalizing read with
  | nil => rfl
  | cons byte line ih =>
    have other : byte ≠ 10 := (List.ne_of_not_mem_cons unfed).symm
    rw [List.cons_append, lines, if_neg other, ih (List.not_mem_of_not_mem_cons unfed),
      List.reverse_cons, List.append_assoc, List.singleton_append]

theorem lines_feed (read rest : List UInt8) :
    lines read (10 :: rest) = endLine read :: lines [] rest :=
  if_pos rfl

theorem AreLines.eq_lines {input : List UInt8} {pieces : List (List UInt8)}
    (areLines : AreLines input pieces) : pieces = lines [] input := by
  induction areLines with
  | nothing => rfl
  | @unended line begun unfed =>
    have whole := lines_append unfed [] []
    rw [List.append_nil, List.append_nil, lines, if_neg (List.reverse_ne_nil_iff.mpr begun),
      List.reverse_reverse] at whole
    exact whole.symm
  | fed unfed unreturned _ ih =>
    rw [← List.head?_reverse] at unreturned
    rw [lines_append unfed, lines_feed, List.append_nil, endLine_unreturned unreturned,
      List.reverse_reverse, ih]
  | @returned line rest pieces unfed _ ih =>
    have ended : 10 ∉ line ++ [13] := by simp [unfed]
    have whole := lines_append ended [] (10 :: rest)
    rw [List.append_assoc, List.singleton_append] at whole
    rw [whole, lines_feed, List.append_nil, List.reverse_concat, endLine, List.reverse_reverse, ih]

/-- The line that a line feed ends. -/
theorem AreLines.feed {read rest : List UInt8} {pieces : List (List UInt8)} (unfed : 10 ∉ read)
    (behind : AreLines rest pieces) :
    AreLines (read.reverse ++ 10 :: rest) (endLine read :: pieces) := by
  by_cases returned : read.head? = some 13
  · obtain ⟨line, rfl⟩ := List.head?_eq_some_iff.mp returned
    have inner := List.not_mem_of_not_mem_cons unfed
    rw [List.reverse_cons, List.append_assoc]
    exact .returned (mt List.mem_reverse.mp inner) behind
  · rw [endLine_unreturned returned]
    rw [← List.getLast?_reverse] at returned
    exact .fed (mt List.mem_reverse.mp unfed) returned behind

theorem areLines_lines {read : List UInt8} (unfed : 10 ∉ read) (input : List UInt8) :
    AreLines (read.reverse ++ input) (lines read input) := by
  induction input generalizing read with
  | nil =>
    rw [List.append_nil, lines]
    split
    · rename_i nothing
      rw [nothing]
      exact .nothing
    · rename_i begun
      exact .unended (mt List.reverse_eq_nil_iff.mp begun) (mt List.mem_reverse.mp unfed)
  | cons byte rest ih =>
    by_cases feed : byte = 10
    · subst feed
      rw [lines_feed]
      exact .feed unfed (ih List.not_mem_nil)
    · have longer := ih (List.not_mem_cons_of_ne_of_not_mem (Ne.symm feed) unfed)
      rw [List.reverse_cons, List.append_assoc] at longer
      rwa [lines, if_neg feed]

/-- There is one way to split a stream into lines. -/
theorem areLines_iff (input : List UInt8) (pieces : List (List UInt8)) :
    AreLines input pieces ↔ pieces = lines [] input := by
  refine ⟨AreLines.eq_lines, ?_⟩
  rintro rfl
  exact areLines_lines List.not_mem_nil input

example : lines [] [49, 13, 10, 13] = [[49], [13]] := rfl

/-- What stands behind a line feed is split into lines on its own. -/
theorem lines_append_of_feed (read front rest : List UInt8) :
    lines read (front ++ 10 :: rest) = lines read (front ++ [10]) ++ lines [] rest := by
  induction front generalizing read with
  | nil =>
    rw [List.nil_append, List.nil_append, lines_feed, lines_feed]
    rfl
  | cons byte front ih =>
    rw [List.cons_append, List.cons_append, lines, lines]
    split
    · rw [ih, List.cons_append]
    · exact ih _

/-- The bytes of a text. -/
def bytes (text : String) : List UInt8 :=
  text.toUTF8.data.toList

theorem fromUTF8?_eq_some_iff {text : String} :
    String.fromUTF8? line.toByteArray = some text ↔ bytes text = line := by
  constructor
  · intro read
    unfold String.fromUTF8? at read
    split at read
    · cases read
      exact congrArg Array.toList List.data_toByteArray
    · cases read
  · rintro rfl
    exact fromUTF8?_bytes text

end Session

end Reckoner
