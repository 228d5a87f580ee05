import Reckoner.Outcome

namespace Reckoner.Session

def prompt : String := "> "

/-- Takes off the carriage return before a line feed. The line is given from its last byte. -/
def endLine : List UInt8 → List UInt8
  | 13 :: line => line.reverse
  | line => line.reverse

/-- Splits a stream into lines at its line feeds. What follows the last of them is a line too,
unless it is empty. The part of the line that has been read is given from its last byte. -/
def lines (read : List UInt8) : List UInt8 → List (List UInt8)
  | [] => if read = [] then [] else [read.reverse]
  | byte :: rest => if byte = 10 then endLine read :: lines [] rest else lines (byte :: read) rest

/-- What one line is answered with, before the next prompt. A line of blanks is passed over. -/
def answer (lenient : Bool) (line : String) : Output :=
  if line.toList.all Text.isBlank then ⟨"", ""⟩
  else (Outcome.ofEvaluation (evaluate lenient line)).output

/-- What is written after a line: its answer and the next prompt. A line that is not text has
none. -/
def reply? (lenient : Bool) (line : List UInt8) : Option Output :=
  (String.fromUTF8? line.toByteArray).map fun text => answer lenient text ++ ⟨prompt, ""⟩

/-- How a session ends when there are no more lines. -/
def farewell : Outcome :=
  Outcome.success "\n"

/-- How a session ends at a line that is not text. -/
def breakOff : Outcome :=
  Outcome.failure "" "stream did not contain valid UTF-8"

/-- Replies to lines one after the other, until there are no more or one is not text. -/
def replyAll (lenient : Bool) (written : Output) : List (List UInt8) → Outcome
  | [] => { farewell with output := written ++ farewell.output }
  | line :: rest =>
    match reply? lenient line with
    | some reply => replyAll lenient (written ++ reply) rest
    | none => { breakOff with output := written ++ breakOff.output }

def run (lenient : Bool) (input : List UInt8) : Outcome :=
  replyAll lenient ⟨prompt, ""⟩ (lines [] input)

end Reckoner.Session
