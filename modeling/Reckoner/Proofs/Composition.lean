import Reckoner.Proofs.Concatenation
import Reckoner.Proofs.Enclosure
import Reckoner.Proofs.Operand
import Reckoner.Proofs.Readability
import Reckoner.Proofs.Respelling
import Reckoner.Proofs.Source

namespace Reckoner

/-- Every number in a phrase is read. -/
theorem Derives.isSome_read? {α : Type} [Arithmetic α] {phrase : Phrase} {levels : Nat}
    {tokens : List Token} {value : α} (derives : Derives phrase levels tokens value) :
    ∀ lexeme, .number lexeme ∈ tokens → (Arithmetic.read? lexeme : Option α).isSome = true := by
  induction derives with
  | number read =>
    intro lexeme inside
    cases List.mem_singleton.mp inside
    rw [read, Option.isSome_some]
  | group _ ih => simpa using ih
  | plain _ ih | factor _ ih | summand _ ih => exact ih
  | negated _ ih => simpa using ih
  | product _ _ first second | quotient _ _ first second | sum _ _ first second
  | difference _ _ first second =>
    intro lexeme inside
    rcases List.mem_append.mp inside with before | behind
    · exact first lexeme before
    · rcases List.mem_cons.mp behind with operator | inside
      · cases operator
      · exact second lexeme inside

/-- Operators and parentheses, as they are spelled. -/
inductive Token.IsSymbol : Token → Prop
  | operator (op : Operation) : IsSymbol (.operator (String.singleton op.symbol))
  | opening : IsSymbol .opening
  | closing : IsSymbol .closing

namespace Token.IsSymbol

variable {symbol : Token}

theorem isSpelled (isSymbol : symbol.IsSymbol) : symbol.IsSpelled := by
  cases isSymbol with
  | operator op => exact .operator op
  | opening => exact .opening
  | closing => exact .closing

/-- A symbol is one character, and none that occurs in a numeral but for the signs. -/
theorem exists_char (isSymbol : symbol.IsSymbol) :
    ∃ c, symbol.lexeme.toList = [c] ∧ c.isDigit = false ∧ c ≠ '.' ∧ c ≠ 'e' ∧ c ≠ 'E' := by
  cases isSymbol with
  | operator op =>
    refine ⟨op.symbol, String.toList_singleton op.symbol, ?_⟩
    cases op <;> decide
  | opening => exact ⟨'(', by decide⟩
  | closing => exact ⟨')', by decide⟩

theorem replicate (isSymbol : symbol.IsSymbol) (count : Nat) :
    ∀ token ∈ List.replicate count symbol, token.IsSymbol := by
  intro token inside
  rwa [List.eq_of_mem_replicate inside]

/-- No symbol goes on. -/
theorem endsBefore (isSymbol : symbol.IsSymbol) (behind : List Char) : symbol.EndsBefore behind := by
  cases isSymbol <;> exact trivial

end Token.IsSymbol

section Scan

variable {lenient : Bool} {source rest : String} {symbol : Token} {tokens behind : List Token}

theorem scan_empty : scan lenient "" = .ok [] :=
  scan_of_holds _ (Place.holds_of_blanks (List.forall_mem_nil _)) lenient

/-- A symbol is a token of its own, whatever is behind it. -/
theorem scan_symbol_append (isSymbol : symbol.IsSymbol) (scanned : scan lenient rest = .ok behind) :
    scan lenient (symbol.lexeme ++ rest) = .ok (symbol :: behind) := by
  refine scan_append (scan_token isSymbol.isSpelled) scanned fun token inside => ?_
  cases List.mem_singleton.mp inside
  exact isSymbol.endsBefore rest.toList

theorem scan_symbols_append {symbols : List Token} (areSymbols : ∀ symbol ∈ symbols, symbol.IsSymbol)
    (scanned : scan lenient rest = .ok behind) :
    scan lenient (String.join (symbols.map Token.lexeme) ++ rest) = .ok (symbols ++ behind) := by
  induction symbols with
  | nil => simpa using scanned
  | cons symbol symbols ih =>
    obtain ⟨first, others⟩ := List.forall_mem_cons.mp areSymbols
    rw [List.map_cons, String.join_cons, String.append_assoc]
    exact scan_symbol_append first (ih others)

/-- A phrase is over before a symbol: its last number does not take the sign for that of an
exponent, because then it would lack the digits that it needs to be read. -/
theorem Derives.scan_append_symbol {phrase : Phrase} {levels : Nat} {value : Float}
    (derives : Derives phrase levels tokens value) (scanned : scan lenient source = .ok tokens)
    (isSymbol : symbol.IsSymbol) (scanned' : scan lenient rest = .ok behind) :
    scan lenient (source ++ (symbol.lexeme ++ rest)) = .ok (tokens ++ symbol :: behind) := by
  refine scan_append scanned (scan_symbol_append isSymbol scanned') fun token inside => ?_
  obtain ⟨c, char, noDigit, noPoint, noMarker⟩ := isSymbol.exists_char
  rw [String.toList_append, char]
  refine Token.endsBefore_of_read (isSpelled_of_scan scanned token inside) ?_ noDigit noPoint
    noMarker _
  rintro lexeme rfl
  exact derives.isSome_read? lexeme inside

end Scan

/-- A source is scanned to a phrase with this value. -/
def Writes (lenient : Bool) (phrase : Phrase) (levels : Nat) (source : String) (value : Float) :
    Prop :=
  ∃ tokens, scan lenient source = .ok tokens ∧ Derives phrase levels tokens value

/-- How deep the groups of a source are in one another. -/
def groupDepth (lenient : Bool) (source : String) : Nat :=
  match scan lenient source with
  | .ok tokens => nesting tokens
  | .error _ => 0

section Writes

variable {lenient : Bool} {levels : Nat} {source first second : String} {value x y : Float}

theorem groupDepth_of_scan {tokens : List Token} (scanned : scan lenient source = .ok tokens) :
    groupDepth lenient source = nesting tokens := by
  rw [groupDepth, scanned]

/-- The sources that have a value are those that write an expression. -/
theorem evaluate_result_eq_ok_iff : (evaluate lenient source).result = .ok value ↔
    Writes lenient .expression nestingLimit source value := by
  constructor
  · intro evaluated
    cases scanned : scan lenient source with
    | error found =>
      rw [evaluate_result_of_scan_error scanned] at evaluated
      cases evaluated
    | ok tokens => exact ⟨tokens, scanned, (evaluate_result_eq_ok_iff_derives scanned).mp evaluated⟩
  · rintro ⟨tokens, scanned, derives⟩
    exact (evaluate_result_eq_ok_iff_derives scanned).mpr derives

/-- A source needs no more levels than its groups are deep. -/
theorem Writes.of_groupDepth_le {phrase : Phrase} {limit : Nat}
    (writes : Writes lenient phrase limit source value)
    (within : groupDepth lenient source ≤ levels) : Writes lenient phrase levels source value := by
  obtain ⟨tokens, scanned, derives⟩ := writes
  rw [groupDepth_of_scan scanned] at within
  exact ⟨tokens, scanned, derives.of_nesting_le within⟩

/-- What is written is nested no deeper than it may be. -/
theorem Writes.groupDepth_le {phrase : Phrase} (writes : Writes lenient phrase levels source value) :
    groupDepth lenient source ≤ levels := by
  obtain ⟨tokens, scanned, derives⟩ := writes
  rw [groupDepth_of_scan scanned]
  exact derives.nesting_le

theorem Writes.evaluate_result (writes : Writes lenient .expression levels source value)
    (within : levels ≤ nestingLimit) : (evaluate lenient source).result = .ok value :=
  evaluate_result_eq_ok_iff.mpr (writes.of_groupDepth_le (Nat.le_trans writes.groupDepth_le within))

/-- An expression in parentheses. -/
theorem Writes.group (writes : Writes lenient .expression levels source value) :
    Writes lenient .primary (levels + 1) ("(" ++ (source ++ ")")) value := by
  obtain ⟨tokens, scanned, derives⟩ := writes
  have inside := derives.scan_append_symbol scanned .closing scan_empty
  have whole := scan_symbol_append .opening inside
  simp only [Token.lexeme, String.append_empty] at whole
  exact ⟨_, whole, .group derives⟩

/-- A minus sign before a number or a group. -/
theorem Writes.negated (writes : Writes lenient .primary levels source value) :
    Writes lenient .operand levels ("-" ++ source) (-value) := by
  obtain ⟨tokens, scanned, derives⟩ := writes
  have whole := scan_symbol_append (.operator .sub) scanned
  exact ⟨_, whole, .negated derives⟩

/-- A source writes each kind of phrase that its tokens are. -/
theorem Writes.lift {phrase other : Phrase} (writes : Writes lenient phrase levels source value)
    (step : ∀ {tokens}, Derives phrase levels tokens value → Derives other levels tokens value) :
    Writes lenient other levels source value := by
  obtain ⟨tokens, scanned, derives⟩ := writes
  exact ⟨tokens, scanned, step derives⟩

/-- An operation takes all of the source before it as its left operand, where the grammar does. -/
theorem Writes.joined {phrase other : Phrase} (op : Operation)
    (left : Writes lenient phrase levels first x) (right : Writes lenient other levels second y)
    (step : ∀ {before behind}, Derives phrase levels before x → Derives other levels behind y →
      Derives phrase levels (before ++ .operator (String.singleton op.symbol) :: behind)
        (op.apply x y)) :
    Writes lenient phrase levels (first ++ (String.singleton op.symbol ++ second))
      (op.apply x y) := by
  obtain ⟨before, scanned, derives⟩ := left
  obtain ⟨behind, scanned', derives'⟩ := right
  have whole := derives.scan_append_symbol scanned (.operator op) scanned'
  exact ⟨_, whole, step derives derives'⟩

/-- Two operands with any operation between them. -/
theorem Writes.binary (op : Operation) (left : Writes lenient .operand levels first x)
    (right : Writes lenient .operand levels second y) :
    Writes lenient .expression levels (first ++ (String.singleton op.symbol ++ second))
      (op.apply x y) := by
  cases kind : op.isMultiplicative with
  | false => exact (left.lift .expression).joined op (right.lift .factor) (.summed kind)
  | true => exact ((left.lift .factor).joined op right (.scaled kind)).lift .summand

/-- A source behind opening and before closing parentheses, as many of the one as of the other. -/
def parenthesizedTimes (count : Nat) (source : String) : String :=
  String.join (List.replicate count "(") ++ source ++ String.join (List.replicate count ")")

theorem scan_parenthesizedTimes {phrase : Phrase} {tokens : List Token}
    (derives : Derives phrase levels tokens value) (scanned : scan lenient source = .ok tokens)
    (count : Nat) :
    scan lenient (parenthesizedTimes count source) = .ok (enclosed count tokens) := by
  have inside : scan lenient (source ++ String.join (List.replicate count ")")) =
      .ok (tokens ++ List.replicate count .closing) := by
    cases count with
    | zero => simpa using scanned
    | succ count =>
      have others : scan lenient _ = .ok _ :=
        scan_symbols_append (Token.IsSymbol.closing.replicate count) scan_empty
      have whole := derives.scan_append_symbol scanned .closing others
      simpa [List.replicate_succ, Token.lexeme] using whole
  have whole := scan_symbols_append (Token.IsSymbol.opening.replicate count) inside
  rw [List.map_replicate] at whole
  simpa [parenthesizedTimes, enclosed, Token.lexeme, String.append_assoc] using whole

/-- Parentheses around a source change nothing until they are too many. -/
theorem evaluate_parenthesizedTimes (writes : Writes lenient .expression nestingLimit source value)
    (count : Nat) : (evaluate lenient (parenthesizedTimes count source)).result =
      if groupDepth lenient source + count ≤ 256 then .ok value
      else .error (.malformed .nestingTooDeep) := by
  obtain ⟨tokens, scanned, derives⟩ := writes
  have limit : nestingLimit = 256 := rfl
  rw [evaluate_result_of_scan (scan_parenthesizedTimes derives scanned count),
    Parser.parse_result_enclosed derives, groupDepth_of_scan scanned, limit]
  split <;> rfl

/-- Putting sources together puts their values together. A sum or a difference needs parentheses
only around what is added or subtracted, the other operations around both, negation around what is
negated. As many parentheses may be put around a source as its own groups leave levels for. -/
theorem evaluate_composed (left : (evaluate lenient first).result = .ok x)
    (right : (evaluate lenient second).result = .ok y) :
    (groupDepth lenient second ≤ 255 →
      (evaluate lenient (first ++ "+(" ++ second ++ ")")).result = .ok (x + y) ∧
      (evaluate lenient (first ++ "-(" ++ second ++ ")")).result = .ok (x - y)) ∧
    (groupDepth lenient first ≤ 255 → groupDepth lenient second ≤ 255 → ∀ op : Operation,
      (evaluate lenient ("(" ++ first ++ ")" ++ String.singleton op.symbol ++
        "(" ++ second ++ ")")).result = .ok (op.apply x y)) ∧
    (groupDepth lenient first ≤ 255 →
      (evaluate lenient ("-(" ++ first ++ ")")).result = .ok (-x)) ∧
    ∀ count, (evaluate lenient (parenthesizedTimes count first)).result =
      if groupDepth lenient first + count ≤ 256 then .ok x
      else .error (.malformed .nestingTooDeep) := by
  have writes := evaluate_result_eq_ok_iff.mp left
  have writes' := evaluate_result_eq_ok_iff.mp right
  refine ⟨fun within => ?_, fun within within' op => ?_, fun within => ?_,
    evaluate_parenthesizedTimes writes⟩
  · have group := ((writes'.of_groupDepth_le within).group.lift .plain).lift .factor
    have sum : Writes lenient .expression 256 _ (x + y) := writes.joined .add group .sum
    have difference : Writes lenient .expression 256 _ (x - y) := writes.joined .sub group .difference
    have plus : "+(" = String.singleton Operation.add.symbol ++ "(" := rfl
    have minus : "-(" = String.singleton Operation.sub.symbol ++ "(" := rfl
    rw [plus, minus]
    simp only [String.append_assoc]
    exact ⟨sum.evaluate_result (Nat.le_refl _), difference.evaluate_result (Nat.le_refl _)⟩
  · have group := (writes.of_groupDepth_le within).group.lift .plain
    have group' := (writes'.of_groupDepth_le within').group.lift .plain
    have whole := group.binary op group'
    simpa only [String.append_assoc] using whole.evaluate_result (Nat.le_refl _)
  · have negated : Writes lenient .expression 256 _ (-x) :=
      (writes.of_groupDepth_le within).group.negated.lift .expression
    have minus : "-(" = "-" ++ "(" := rfl
    rw [minus]
    simp only [String.append_assoc]
    exact negated.evaluate_result (Nat.le_refl _)

end Writes

/-- The sources `-0` and `(0)` put together; 256 groups may be put around `-0`, but not one more. -/
theorem evaluate_composed_zero :
    let zero : Float := Binary64.ofMagnitude false 0
    (evaluate true "-0").result = .ok (-zero) ∧ (evaluate true "(0)").result = .ok zero ∧
    (evaluate true "-0+((0))").result = .ok (-zero + zero) ∧
    (evaluate true "-0-((0))").result = .ok (-zero - zero) ∧
    (evaluate true "(-0)/((0))").result = .ok (-zero / zero) ∧
    (evaluate true "-(-0)").result = .ok (- -zero) ∧
    (evaluate true (parenthesizedTimes 256 "-0")).result = .ok (-zero) ∧
    (evaluate true (parenthesizedTimes 257 "-0")).result =
      (.error (.malformed .nestingTooDeep) : Except Failure Float) := by
  intro zero
  let numeral : NumeralText :=
    ⟨⟨['0'], List.forall_mem_singleton.mpr rfl⟩, none, none, List.cons_ne_nil _ _⟩
  have lexeme : numeral.lexeme = "0" := rfl
  have spelled : (Token.number "0").IsSpelled := lexeme ▸ Token.IsSpelled.number numeral
  have scanned : scan true (Token.number "0").lexeme = .ok [.number "0"] := scan_token spelled
  have number : Writes true .primary 0 "0" zero := ⟨_, scanned, .number rfl⟩
  have negated : Writes true .expression 0 "-0" (-zero) := number.negated.lift .expression
  have plain : Writes true .expression 0 "0" zero := number.lift .expression
  have group : Writes true .expression 1 "(0)" zero := plain.group.lift .expression
  have accepted : (evaluate true "-0").result = .ok (-zero) := negated.evaluate_result (by decide)
  have accepted' : (evaluate true "(0)").result = .ok zero := group.evaluate_result (by decide)
  have none : groupDepth true "-0" = 0 := Nat.le_zero.mp negated.groupDepth_le
  have one : groupDepth true "(0)" ≤ 255 := Nat.le_trans group.groupDepth_le (by decide)
  obtain ⟨sums, operations, negation, enclosed⟩ := evaluate_composed accepted accepted'
  rw [none] at operations negation
  obtain ⟨sum, difference⟩ := sums one
  have quotient := operations (by decide) one .div
  have inside := enclosed 256
  have outside := enclosed 257
  rw [none] at inside outside
  exact ⟨accepted, accepted', sum, difference, quotient, negation (by decide), inside, outside⟩

end Reckoner
