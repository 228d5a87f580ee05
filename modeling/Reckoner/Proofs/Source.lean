import Reckoner.Evaluation
import Reckoner.Proofs.Acceptance
import Reckoner.Proofs.Scanning

namespace Reckoner

variable {α : Type} [Arithmetic α] {lenient : Bool} {source : String}

/-- The records have no part in the result: it is that of the tokens, or the character that scanning
stopped at. -/
theorem evaluate_result_of_scan {tokens : List Token} (scanned : scan lenient source = .ok tokens) :
    (evaluate lenient source : Evaluation α).result =
      (Parser.ofTokens tokens).parse.result.mapError .malformed := by
  have found : (Scanner.ofString lenient source).rest.tokens = .ok tokens := scanned
  simp only [evaluate, found, evaluateTokens]
  cases ((Parser.ofTokens tokens).parse : Reading α α).result with
  | ok value => rfl
  | error fault => rfl

theorem evaluate_result_of_scan_error {found : Unrecognized}
    (scanned : scan lenient source = .error found) :
    (evaluate lenient source : Evaluation α).result = .error (.unrecognized found) := by
  have rejected : (Scanner.ofString lenient source).rest.tokens = .error found := scanned
  simp only [evaluate, rejected]

/-- A source that is scanned has the values that the grammar gives its tokens. -/
theorem evaluate_result_eq_ok_iff_derives {tokens : List Token} {value : α}
    (scanned : scan lenient source = .ok tokens) :
    (evaluate lenient source).result = .ok value ↔
      Derives .expression nestingLimit tokens value := by
  rw [evaluate_result_of_scan scanned]
  constructor
  · intro evaluated
    cases parsed : ((Parser.ofTokens tokens).parse : Reading α α).result with
    | error fault =>
      rw [parsed] at evaluated
      cases evaluated
    | ok found =>
      rw [parsed] at evaluated
      cases evaluated
      exact Parser.derives_of_parse_result_eq_ok parsed
  · intro derives
    rw [Parser.parse_result_of_derives derives]
    rfl

/-- A minus sign in front of a numeral is no part of the number that is read; it negates it. -/
theorem evaluate_numeral {value : α} (negative : Bool) (text : NumeralText)
    (read : Arithmetic.read? text.lexeme = some value)
    (chars : source.toList = signChars negative ++ text.chars) :
    (evaluate lenient source).result = .ok (signed negative value) := by
  have derives : Derives .expression nestingLimit (signTokens negative ++ [.number text.lexeme])
      (signed negative value) :=
    .summand (.factor (.operand negative (.number read)))
  exact (evaluate_result_eq_ok_iff_derives (scan_numeral negative lenient text chars)).mpr derives

end Reckoner
