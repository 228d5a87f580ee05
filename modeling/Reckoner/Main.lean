import Reckoner.CommandLine

namespace Reckoner.Main

def write (output : Output) : IO Unit := do
  let stdout ← IO.getStdout
  let stderr ← IO.getStderr
  stdout.putStr output.stdout
  stdout.flush
  stderr.putStr output.stderr
  stderr.flush

def finish (outcome : Outcome) : IO UInt32 := do
  write outcome.output
  return UInt32.ofNat outcome.exit

/-- The bytes up to and with the next line feed, given those `read` from the last. -/
partial def readLine (input : IO.FS.Stream) (read : List UInt8) : IO (List UInt8) := do
  match (← input.read 1).toList with
  | [] => return read.reverse
  | byte :: _ => if byte = 10 then return (byte :: read).reverse else readLine input (byte :: read)

/-- Replies to each line as soon as it has been read. -/
partial def converse (lenient : Bool) (input : IO.FS.Stream) : IO UInt32 := do
  match Session.lines [] (← readLine input []) with
  | [] => finish Session.farewell
  | line :: _ =>
    match Session.reply? lenient line with
    | none => finish Session.breakOff
    | some reply =>
      write reply
      converse lenient input

def usage : String :=
  "Usage: reckoner (eval | tokens) [-l | --lenient] [--] EXPR\n       reckoner repl [-l | --lenient]\n"

end Reckoner.Main

open Reckoner in
def main (arguments : List String) : IO UInt32 := do
  match Command.ofArguments? arguments with
  | none => Main.finish ⟨⟨"", Main.usage⟩, 2⟩
  | some (.repl lenient) =>
    Main.write ⟨Session.prompt, ""⟩
    Main.converse lenient (← IO.getStdin)
  | some command => Main.finish (command.run [])
