import Mathlib.Data.List.Basic
import Reckoner.Proofs.Description
import Reckoner.Proofs.Display
import Reckoner.Proofs.Passing
import Reckoner.Proofs.Products
import Reckoner.Proofs.Pursuit
import Reckoner.Proofs.Source
import Reckoner.Proofs.Viability

namespace Reckoner

/-- Nothing is left out of a log that is kept up to the last level. -/
theorem Record.isKept_trace {α : Type} (record : Record α) :
    record.isKept (some .trace) = true := by
  cases record <;> rfl

/-- The folds of a reading are those made on the way over the tokens that are read, as many of them
as lead onward. -/
theorem Parser.exists_reach_folds (α : Type) [Arithmetic α] (tokens : List Token) :
    ∃ read rest state, tokens = read ++ rest ∧
      State.Reach (initial : State α) read (ofTokens tokens).parse.folds state ∧
      ∀ token ∈ rest.head?, state.Stops token := by
  obtain ⟨read, rest, folds, state, result, unread, split, reach, halts, parsed⟩ :=
    exists_parse_eq α (ofTokens tokens)
  rw [parsed]
  exact ⟨read, rest, state, split, reach, halts.stops rfl⟩

/-- How tokens are read that come to this result. As many of them are `read` as an expression can
begin with; the next one, if there is one, makes the error, whatever stands behind it. The products
and quotients are those whose right operands are read, each operator once, in the order in which the
operands end. If there is a value, none of the tokens' products and quotients is missing. -/
structure AreFolded (tokens : List Token) (result : Except Failure Float) (read : List Token)
    (products : List (Product Float)) : Prop where
  part : read <+: tokens
  viable : Viable Float read
  refused : ∀ token rest, tokens = read ++ token :: rest → ∃ fault : Fault,
    result = .error (.malformed fault) ∧ ∀ other,
      (Parser.ofTokens (read ++ token :: other)).parse.result = (.error fault : Except Fault Float)
  mem_iff : ∀ p, p ∈ products ↔ p.tokens <+: read
  once : products.Pairwise fun p q => p.before.length ≠ q.before.length
  ordered : products.Pairwise fun p q => p.tokens.length < q.tokens.length
  none_missing : ∀ value, result = .ok value →
    ∀ (before behind : List Token) (op : Operation), op.isMultiplicative = true →
      tokens = before ++ .operator (String.singleton op.symbol) :: behind →
      ∃ p ∈ products, p.before = before ∧ p.op = op

theorem exists_areFolded {lenient : Bool} {source : String} {tokens : List Token}
    (scanned : scan lenient source = .ok tokens) :
    ∃ read products, AreFolded tokens (evaluate lenient source).result read products ∧
      (Parser.ofTokens tokens).parse.folds = products.map Product.fold := by
  have zero : Arithmetic.read? "0" = some (Binary64.ofMagnitude false 0) := rfl
  have parsed : (evaluate lenient source : Evaluation Float).result = _ :=
    evaluate_result_of_scan scanned
  have accepted (value : Float) : (evaluate lenient source).result = .ok value ↔ _ :=
    evaluate_result_eq_ok_iff_derives scanned
  obtain ⟨read, rest, state, rfl, reach, stops⟩ := Parser.exists_reach_folds Float tokens
  obtain ⟨products, folds, ordered, mem_iff⟩ := reach.exists_products
  have refused (token : Token) (rest' : List Token) (split : rest = token :: rest') :
      ∃ fault : Fault, (evaluate lenient source : Evaluation Float).result =
        .error (.malformed fault) ∧ ∀ other,
          (Parser.ofTokens (read ++ token :: other)).parse.result =
            (.error fault : Except Fault Float) := by
    subst split
    obtain ⟨fault, error⟩ := Parser.parse_result_of_stops reach (stops token rfl)
    refine ⟨fault, ?_, error⟩
    rw [parsed, error]
    rfl
  refine ⟨read, products, ?_, folds⟩
  constructor
  · exact List.prefix_append read rest
  · exact (viable_iff_reach zero).mpr ⟨_, state, reach⟩
  · exact fun token rest' split => refused token rest' (List.append_cancel_left split)
  · exact mem_iff
  · refine ordered.imp_of_mem fun {p q} inside inside' shorter same => ?_
    have equal := Product.eq_of_before_eq same ((mem_iff p).mp inside) ((mem_iff q).mp inside')
    rw [equal] at shorter
    exact Nat.lt_irrefl _ shorter
  · exact ordered
  · intro value ok before behind op multiplicative split
    obtain ⟨p, front, op', part⟩ := ((accepted value).mp ok).exists_product multiplicative split
    refine ⟨p, (mem_iff p).mpr ?_, front, op'⟩
    cases rest with
    | nil => rwa [List.append_nil] at part
    | cons token rest' =>
      obtain ⟨fault, error, _⟩ := refused token rest' rfl
      cases error.symm.trans ok

/-- What is logged of an item that is passed. -/
def Item.line : Item → Level × String
  | token _ found => (.trace, s!"Lexed {found.shown}")
  | unrecognized found =>
    (.warn, s!"Skipping unrecognized character `{found.char}` at offset {found.offset}")

/-- What is logged of a product or quotient. -/
def Product.line (product : Product Float) : Level × String :=
  (.trace,
    s!"Folding `{product.op.symbol}` {Arithmetic.render product.value} into the rightmost operand")

/-- What is logged in the end, if there is a value. -/
def lastLine? : Except Failure Float → Option (Level × String)
  | .ok value => some (.debug, s!"Evaluated to {Arithmetic.render value}")
  | .error _ => none

/-- What a record says and how much it matters. -/
def Record.line (record : Record Float) : Level × String :=
  (record.level, record.text)

/-- All that is logged of an evaluation. -/
def log (lenient : Bool) (source : String) : List (Level × String) :=
  let records := (evaluate lenient source : Evaluation Float).records
  (records.filter (Record.isKept (some .trace))).map Record.line

theorem log_eq_map_line (lenient : Bool) (source : String) :
    log lenient source = (evaluate lenient source).records.map Record.line := by
  rw [log, List.filter_eq_self.mpr fun record _ => record.isKept_trace]

/-- Each item has its record, if none is met that is rejected. -/
theorem map_line_ofItem? {lenient : Bool} {items : List Item}
    (spelled : ∀ item ∈ items, item.IsSpelled)
    (passable : lenient = true ∨ ∀ item ∈ items, item.isToken = true) :
    (items.filterMap (Record.ofItem? lenient)).map Record.line = items.map Item.line := by
  rw [List.map_filterMap, ← List.filterMap_eq_map]
  refine List.filterMap_congr fun item inside => ?_
  cases spelled item inside with
  | token spelled =>
    have described := Token.describe_of_isSpelled spelled
    exact congrArg (fun text => some (Level.trace, s!"Lexed {text}")) described
  | @unrecognized found _ =>
    rcases passable with rfl | recognized
    · rfl
    · cases recognized _ inside

/-- The log of a source without a rejected character, whether it is an expression or not. -/
theorem exists_log_of_scan {lenient : Bool} {source : String} {items : List Item}
    (spelled : ∀ item ∈ items, item.IsSpelled)
    (passed : (Scanner.ofString lenient source).rest.passed = items)
    (scanned : (Scanner.ofString lenient source).rest.tokens = .ok (items.filterMap Item.token?))
    (passable : lenient = true ∨ ∀ item ∈ items, item.isToken = true) :
    ∃ read products,
      AreFolded (items.filterMap Item.token?) (evaluate lenient source).result read products ∧
      log lenient source = (.debug, s!"Evaluating {Text.quoted source}") ::
        (items.map Item.line ++ products.map Product.line ++
          (lastLine? (evaluate lenient source).result).toList) := by
  obtain ⟨read, products, folded, folds⟩ := exists_areFolded scanned
  refine ⟨read, products, folded, ?_⟩
  have lines := map_line_ofItem? spelled passable
  have line : Record.line ∘ Record.folding ∘ Product.fold = Product.line := rfl
  rw [log_eq_map_line]
  simp only [evaluate, passed, scanned, evaluateTokens, folds]
  cases ((Parser.ofTokens (items.filterMap Item.token?)).parse : Reading Float Float).result with
  | ok value =>
    simp only [List.cons_append, List.map_cons, List.map_append, List.map_map, lines, line]
    rfl
  | error fault =>
    simp only [List.cons_append, List.map_cons, List.map_append, List.map_map, lines, line,
      lastLine?, Option.toList_none, List.append_nil]
    rfl

/-- The log of a source that is rejected has nothing behind the tokens before the character. -/
theorem log_of_rejected {source : String} {before : List Item} {found : Unrecognized}
    (spelled : ∀ item ∈ before, item.IsSpelled)
    (passed : (Scanner.ofString false source).rest.passed = before ++ [.unrecognized found])
    (rejected : (Scanner.ofString false source).rest.tokens = .error found)
    (recognized : ∀ item ∈ before, item.isToken = true) :
    log false source =
      (.debug, s!"Evaluating {Text.quoted source}") :: before.map Item.line := by
  have items := map_line_ofItem? spelled (Or.inr recognized : false = true ∨ _)
  have none : Record.ofItem? false (.unrecognized found) = (none : Option (Record Float)) := rfl
  rw [log_eq_map_line]
  simp only [evaluate, passed, rejected, List.filterMap_append, List.filterMap_cons, none,
    List.filterMap_nil, List.append_nil, List.map_cons, items]
  rfl

/-- What the log tells: that a source is evaluated, and then, in the order of the source, its tokens
and the characters that are skipped. A rejected character ends the log there. Otherwise there follow
the products and quotients that are carried out, and the value if there is one. A number that is
logged is written as it is shown anywhere. -/
theorem log_tells (lenient : Bool) (source : String) :
    let items := (Scanner.ofString false source).drain
    let result := (evaluate lenient source : Evaluation Float).result
    let begun := (Level.debug, s!"Evaluating {Text.quoted source}")
    (∀ (value : Float) (text : String), IsShownAs value text ↔ text = Arithmetic.render value) ∧
    (items.Pairwise fun item later => item.stop ≤ later.offset) ∧
    ((lenient = false ∧ ∃ before found behind, items = before ++ .unrecognized found :: behind ∧
      (∀ item ∈ before, item.isToken = true) ∧ result = .error (.unrecognized found) ∧
      log lenient source = begun :: before.map Item.line) ∨
    ((lenient = true ∨ ∀ item ∈ items, item.isToken = true) ∧ ∃ read products,
      AreFolded (items.filterMap Item.token?) result read products ∧
      log lenient source = begun ::
        (items.map Item.line ++ products.map Product.line ++ (lastLine? result).toList))) := by
  intro items result begun
  have drained : items = (Scanner.ofString lenient source).place.items :=
    Scanner.drain_ofString source
  have spelled : ∀ item ∈ items, item.IsSpelled := drained ▸ Place.isSpelled_items _
  refine ⟨isShownAs_iff, drained ▸ (Place.pairwise_items _).2, ?_⟩
  cases lenient with
  | true =>
    have lenient : (Scanner.ofString true source).lenient = true := rfl
    obtain ⟨passed, scanned⟩ := Scanner.rest_of_lenient lenient
    rw [← drained] at passed scanned
    exact Or.inr ⟨Or.inl rfl, exists_log_of_scan spelled passed scanned (Or.inl rfl)⟩
  | false =>
    have strict : (Scanner.ofString false source).lenient = false := rfl
    rcases Scanner.rest_of_strict strict with
      ⟨recognized, passed, scanned⟩ | ⟨before, found, behind, split, recognized, passed, rejected⟩
    · rw [← drained] at recognized passed scanned
      exact Or.inr ⟨Or.inr recognized, exists_log_of_scan spelled passed scanned (Or.inr recognized)⟩
    · rw [← drained] at split
      have spelledBefore : ∀ item ∈ before, item.IsSpelled := fun item inside =>
        spelled item (split ▸ List.mem_append_left _ inside)
      exact Or.inl ⟨rfl, before, found, behind, split, recognized,
        evaluate_result_of_scan_error rejected,
        log_of_rejected spelledBefore passed rejected recognized⟩

end Reckoner
