import Reckoner.CommandLine
import Reckoner.Proofs.Concatenation
import Reckoner.Proofs.Conversation
import Reckoner.Proofs.Cursor
import Reckoner.Proofs.Description
import Reckoner.Proofs.Partition
import Reckoner.Proofs.Respelling
import Reckoner.Proofs.Source

namespace Reckoner

namespace Text

theorem newline_notMem_hexadecimal (n : Nat) : '\n' ∉ (hexadecimal n).toList := by
  have digit : ∀ d < 16, Nat.digitChar d ≠ '\n' := by decide
  rw [hexadecimal, String.toList_ofList]
  induction n using Nat.strongRecOn with
  | ind n ih =>
    rw [Nat.toDigits_eq_if (by decide)]
    split
    · rename_i small
      exact fun inside => digit n small (List.mem_singleton.mp inside).symm
    · rename_i large
      have front := ih (n / 16) (by omega)
      intro inside
      rcases List.mem_append.mp inside with before | last
      · exact front before
      · exact digit (n % 16) (by omega) (List.mem_singleton.mp last).symm

theorem newline_notMem_quotedChar (c : Char) : '\n' ∉ (quotedChar c).toList := by
  by_cases feed : c = '\n'
  · subst feed
    decide
  · unfold quotedChar
    repeat' split
    any_goals decide
    · rw [String.toList_singleton, List.mem_singleton]
      exact Ne.symm feed
    · have digits := newline_notMem_hexadecimal c.toNat
      simp [digits]

/-- A text is quoted on one line. -/
theorem newline_notMem_quoted (text : String) : '\n' ∉ (quoted text).toList := by
  simp [quoted, newline_notMem_quotedChar]

end Text

/-- Tokens are described on one line. -/
theorem Token.newline_notMem_describe (token : Token) : '\n' ∉ token.describe.toList := by
  have around (first text last : String) (one : '\n' ∉ first.toList) (other : '\n' ∉ last.toList) :
      '\n' ∉ (first ++ Text.quoted text ++ last).toList := by
    simp [Text.newline_notMem_quoted text, one, other]
  cases token with
  | number lexeme => exact around "Number(" lexeme ")" (by decide) (by decide)
  | operator symbol => exact around "Op(" symbol ")" (by decide) (by decide)
  | opening => decide
  | closing => decide

namespace Scanner

variable {scanner : Scanner} {stops halts : Item → Bool}

/-- What has been passed before has no part in how scanning goes on. -/
theorem passTo_append (stops : Item → Bool) (passed more : List Item) (scanner : Scanner) :
    scanner.passTo stops (passed ++ more) =
      { scanner.passTo stops passed with
        passed := more.reverse ++ (scanner.passTo stops passed).passed } := by
  fun_induction passTo stops passed scanner with
  | case1 passed scanner ended => rw [passTo_end ended, List.reverse_append]
  | case2 passed scanner item behind found stop =>
    rw [passTo_next found, if_pos stop, ← List.cons_append, List.reverse_append]
  | case3 passed scanner item behind found onward ih =>
    rw [passTo_next found, if_neg onward, ← List.cons_append, ih]

/-- Where scanning that stops more often comes to, there it goes on from. -/
theorem passTo_onward (coarser : ∀ item, stops item = true → halts item = true)
    (passed : List Item) (scanner : Scanner) {item : Item}
    (halted : (scanner.passTo halts passed).stop = some item) (onward : stops item = false) :
    scanner.passTo stops passed =
      (scanner.passTo halts passed).scanner.passTo stops
        (scanner.passTo halts passed).passed.reverse := by
  fun_induction passTo halts passed scanner with
  | case1 => cases halted
  | case2 passed scanner other behind found _ =>
    cases halted
    rw [passTo_next found, onward, if_neg Bool.false_ne_true, List.reverse_reverse]
  | case3 passed scanner other behind found unhalted ih =>
    rw [passTo_next found, if_neg (mt (coarser other) unhalted), ih halted]

/-- And where it stops for good, there both do. -/
theorem passTo_stopped (coarser : ∀ item, stops item = true → halts item = true)
    (passed : List Item) (scanner : Scanner)
    (stopped : ∀ item ∈ (scanner.passTo halts passed).stop, stops item = true) :
    scanner.passTo stops passed = scanner.passTo halts passed := by
  fun_induction passTo halts passed scanner with
  | case1 passed scanner ended => exact passTo_end ended passed
  | case2 passed scanner item behind found _ => rw [passTo_next found, if_pos (stopped item rfl)]
  | case3 passed scanner item behind found unhalted ih =>
    rw [passTo_next found, if_neg (mt (coarser item) unhalted), ih stopped]

theorem rejects_congr {other : Scanner} (same : other.lenient = scanner.lenient) :
    other.rejects = scanner.rejects := by
  funext item
  rw [rejects, rejects, same]

theorem catches_of_rejects {item : Item} (rejected : scanner.rejects item = true) :
    scanner.catches item = true := by
  rw [catches, rejected, Bool.or_true]

/-- The rest is what is found next and the rest behind it. -/
theorem rest_of_token {offset : Nat} {token : Token}
    (found : scanner.next.stop = some (.token offset token)) :
    scanner.rest = { scanner.next.scanner.rest with
      passed := scanner.next.passed ++ scanner.next.scanner.rest.passed } := by
  have onward : scanner.rejects (.token offset token) = false := Bool.and_false _
  have rest := passTo_onward (fun _ => catches_of_rejects) [] scanner found onward
  have later := passTo_append scanner.rejects [] scanner.next.passed.reverse scanner.next.scanner
  rw [List.nil_append, List.reverse_reverse] at later
  have same := rejects_congr scanner.lenient_next
  unfold Scanner.rest
  rw [same]
  exact rest.trans later

/-- Where no token is found there is nothing more to the rest. -/
theorem rest_of_no_token (none : scanner.next.stop.bind Item.token? = none) :
    scanner.rest = scanner.next := by
  have rejected : ∀ item ∈ scanner.next.stop, scanner.rejects item = true := by
    intro item stopped
    have caught := List.find?_some (scanner.next_covers.stop.symm.trans stopped)
    rw [Option.mem_def.mp stopped, Option.bind_some] at none
    rwa [catches, Item.isToken, none, Option.isSome_none, Bool.false_or] at caught
  exact passTo_stopped (fun _ => catches_of_rejects) [] scanner rejected

/-- A step passes no token but the one that it stops at. -/
theorem found_next (scanner : Scanner) :
    scanner.next.found = (scanner.next.stop.bind Item.token?).toList := by
  rcases kept_or_failed scanner .next with ⟨other, _⟩ | kept
  · cases other
  · refine kept.symm.trans ?_
    cases stopped : scanner.next.stop with
    | none => simp [Step.told, take, stopped]
    | some item =>
      simp only [Step.told, take, stopped, Option.toList_some, Option.bind_some]
      cases item <;> rfl

end Scanner

/-- The tokens of a list, each on a line of its own. -/
def listing (tokens : List Token) : String :=
  String.join (tokens.map fun token => token.describe ++ "\n")

/-- The tokens of a source are listed with their texts as they stand in it. -/
theorem listing_of_scan {lenient : Bool} {source : String} {tokens : List Token}
    (scanned : scan lenient source = .ok tokens) :
    listing tokens = String.join (tokens.map fun token => token.shown ++ "\n") := by
  refine congrArg String.join (List.map_congr_left fun token inside => ?_)
  rw [Token.describe_of_isSpelled (isSpelled_of_scan scanned token inside)]

namespace Outcome

/-- Shows tokens as they are found, one after the other, up to the first character that is
rejected. -/
def ofScanner (scanner : Scanner) : Outcome :=
  match _ : scanner.next.stop with
  | none => success ""
  | some (.token _ token) =>
    let later := ofScanner scanner.next.scanner
    ⟨⟨token.describe ++ "\n", ""⟩ ++ later.output, later.exit⟩
  | some (.unrecognized found) =>
    failure "" (found.message ++ positionNote scanner.next.scanner.current)
termination_by scanner.place.items.length
decreasing_by exact Scanner.length_next_lt ‹_›

/-- All that has been found is shown, and then the character if there is one. -/
theorem ofPassage_eq (passage : Passage) :
    ofPassage passage =
      match passage.stop.bind Item.unrecognized? with
      | none => success (listing passage.found)
      | some found =>
        failure (listing passage.found) (found.message ++ positionNote passage.scanner.current) := by
  unfold ofPassage Passage.tokens
  cases passage.stop.bind Item.unrecognized? <;> rfl

/-- What has been found before stands in front of all that is shown. -/
theorem ofPassage_append (front : List Item) (passage : Passage) :
    ofPassage { passage with passed := front ++ passage.passed } =
      ⟨⟨listing (front.filterMap Item.token?), ""⟩ ++ (ofPassage passage).output,
        (ofPassage passage).exit⟩ := by
  rw [ofPassage_eq, ofPassage_eq]
  dsimp only
  cases passage.stop.bind Item.unrecognized? with
  | none => simp [Passage.found, listing, success, Output.append_eq]
  | some found => simp [Passage.found, listing, failure, Output.append_eq]

/-- Showing tokens as they are found is showing those of the rest. -/
theorem ofScanner_eq (scanner : Scanner) : ofScanner scanner = ofPassage scanner.rest := by
  fun_induction ofScanner scanner with
  | case1 scanner ended =>
    have found := scanner.found_next
    rw [ended] at found
    rw [Scanner.rest_of_no_token (by rw [ended]; rfl), ofPassage_eq, ended, found]
    rfl
  | case2 scanner offset token stopped later ih =>
    have found := scanner.found_next
    rw [stopped] at found
    rw [Scanner.rest_of_token stopped, ofPassage_append, ← ih]
    have line : listing (scanner.next.passed.filterMap Item.token?) = token.describe ++ "\n" := by
      refine (congrArg listing found).trans ?_
      simp [Item.token?, listing]
    rw [line]
  | case3 scanner rejected stopped =>
    have found := scanner.found_next
    rw [stopped] at found
    rw [Scanner.rest_of_no_token (by rw [stopped]; rfl), ofPassage_eq, stopped, found]
    rfl

end Outcome

theorem Passage.found_of_tokens {passage : Passage} {tokens : List Token}
    (ok : passage.tokens = .ok tokens) : passage.found = tokens := by
  unfold Passage.tokens at ok
  split at ok
  · cases ok
  · exact Except.ok.inj ok

section Scan

variable {lenient : Bool} {source : String} {found : Unrecognized}

/-- A scan that fails has passed tokens alone, which are those of the source up to the character
that it failed at. -/
theorem scan_of_front (failed : scan lenient source = .error found) :
    ∃ front tokens, Text.slice? source 0 found.offset = some front ∧
      scan lenient front = .ok tokens ∧ (Scanner.ofString lenient source).rest.found = tokens := by
  cases lenient with
  | true =>
    rw [scan_lenient] at failed
    cases failed
  | false =>
    have strict : (Scanner.ofString false source).lenient = false := rfl
    rcases Scanner.rest_of_strict strict with
      ⟨_, _, ok⟩ | ⟨items, first, behind, split, recognized, passed, rejected⟩
    · cases ok.symm.trans failed
    · cases rejected.symm.trans failed
      obtain ⟨before, next, chars, here, _, front, _⟩ := Place.exists_cut _ split
      have holds : Place.Holds ⟨0, (String.ofList before).toList⟩ (items.filterMap Item.token?) := by
        rw [String.toList_ofList]
        exact ⟨fun item inside => recognized item (front ▸ inside), by rw [← front]; rfl⟩
      refine ⟨String.ofList before, _, ?_, scan_of_holds _ holds false, ?_⟩
      · have whole : source =
            "" ++ String.ofList before ++ String.ofList (found.char :: next.unread) := by
          refine String.toList_inj.mp (chars.trans ?_)
          simp
        have slice := Text.slice?_append "" (String.ofList before)
          (String.ofList (found.char :: next.unread))
        rw [← whole] at slice
        have offset : found.offset = "".utf8ByteSize + (String.ofList before).utf8ByteSize := here
        rwa [← offset] at slice
      · rw [Passage.found, passed, List.filterMap_append]
        exact List.append_nil _

/-- The token before the character that scanning stopped at is the last one that was found. -/
theorem Scanner.current_rest (lenient : Bool) (source : String) :
    (ofString lenient source).rest.scanner.current =
      (ofString lenient source).rest.found.getLast? := by
  have start : (ofString lenient source).Remembers [] := ⟨rfl, rfl⟩
  exact (start.take .rest).current_eq

end Scan

/-- Listing, scanning and evaluating agree on every source. The tokens are shown one a line as they
are found, each by its kind and its text; up to a character that is rejected they are those of the
source before it, and then the character is reported as it is when the source is evaluated, with the
token before it. -/
theorem tokens_listed (lenient : Bool) (source : String) (input : List UInt8) :
    (Command.tokens lenient source).run input =
        Outcome.ofScanner (Scanner.ofString lenient source) ∧
      (∀ token : Token, '\n' ∉ token.describe.toList) ∧
      (lenient = true → ∃ tokens, scan lenient source = .ok tokens) ∧
      (∀ tokens, scan lenient source = .ok tokens →
        (Command.tokens lenient source).run input =
          ⟨⟨String.join (tokens.map fun token => token.shown ++ "\n"), ""⟩, 0⟩) ∧
      ∀ found, scan lenient source = .error found →
        let message := s!"Unrecognized character `{found.char}` at offset {found.offset}"
        ∃ front tokens, Text.slice? source 0 found.offset = some front ∧
          scan lenient front = .ok tokens ∧
          (Command.tokens lenient source).run input =
            ⟨⟨String.join (tokens.map fun token => token.shown ++ "\n"),
              "error: " ++ (message ++
                tokens.getLast?.elim "" fun last => s!" (after `{last.lexeme}`)") ++ "\n"⟩, 1⟩ ∧
          (Command.eval lenient source).run input = ⟨⟨"", "error: " ++ message ++ "\n"⟩, 1⟩ := by
  refine ⟨(Outcome.ofScanner_eq _).symm, Token.newline_notMem_describe, ?_, ?_, ?_⟩
  · rintro rfl
    exact ⟨_, scan_lenient source⟩
  · intro tokens scanned
    have same : (Scanner.ofString lenient source).rest.tokens = .ok tokens := scanned
    rw [← listing_of_scan scanned]
    simp only [Command.run, Outcome.ofPassage, same, Passage.found_of_tokens same]
    rfl
  · intro found failed message
    have rejected : (Scanner.ofString lenient source).rest.tokens = .error found := failed
    obtain ⟨front, tokens, slice, scanned, listed⟩ := scan_of_front failed
    have current := Scanner.current_rest lenient source
    rw [listed] at current
    refine ⟨front, tokens, slice, scanned, ?_, ?_⟩
    · rw [← listing_of_scan scanned]
      simp only [Command.run, Outcome.ofPassage, rejected, listed, current]
      cases tokens.getLast? <;> rfl
    · simp only [Command.run, Outcome.ofEvaluation, evaluate_result_of_scan_error failed]
      rfl

end Reckoner
