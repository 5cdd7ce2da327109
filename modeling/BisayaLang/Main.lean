/-
**The program.**

This module talks to the system: it reads the file and the input, writes what the library says, and
measures the time.

A program shows its output before it asks for input.  To keep to that, a program is run on the lines
of input that are there; when it asks for another line, what it wrote so far is shown, the line is
read, and the program is run again on one more line.  It then does the same as before up to that
point, so that only what is new is shown.

Main definitions:

* `BisayaLang.Main.serve` — carries out a command;
* `main` — the entry point.
-/

import BisayaLang.Command.Basic

set_option relaxedAutoImplicit false
set_option autoImplicit false

namespace BisayaLang.Main

/-- Reads the rest of a line byte by byte, with its end if it has one. -/
partial def readRest (stdin : IO.FS.Stream) (line : Array UInt8) : IO (Array UInt8) := do
  let bytes ← stdin.read 1
  match bytes.data.toList with
  | [] => return line
  | b :: _ => if b = 10 then return line.push b else readRest stdin (line.push b)

/-- Reads a line; it is empty at the end of the input. -/
def readLine (stdin : IO.FS.Stream) : IO (List UInt8) := do return (← readRest stdin #[]).toList

/-- Writes a text to the terminal for messages. -/
def say (text : String) : IO Unit := do
  let stderr ← IO.getStderr
  stderr.putStr text
  stderr.flush

/-- Writes bytes to the output. -/
def emit (bytes : List UInt8) : IO Unit := do
  let stdout ← IO.getStdout
  stdout.write ⟨bytes.toArray⟩
  stdout.flush

/-- The kind of a failure that the system reports. -/
def kindOf : IO.Error → IoKind
  | .noFileOrDirectory .. => .notFound
  | .permissionDenied .. => .permissionDenied
  | .interrupted .. => .interrupted
  | .timeExpired .. => .timedOut
  | .unsupportedOperation .. => .unsupported
  | _ => .other

/-- The bytes of a file, or why they cannot be read. -/
def readFile (path : String) : IO File := do
  try return .ok (← IO.FS.readBinFile path).data.toList
  catch e => return .error (kindOf e)

/-- Colours are wanted if they are forced, or if messages go to a terminal that can show them. -/
def wantsColor : IO Bool := do
  match ← IO.getEnv "FORCE_COLOR" with
  | some force => if !force.isEmpty then return true
  | none => pure ()
  let plain := (← IO.getEnv "NO_COLOR").isSome || (← IO.getEnv "TERM") == some "dumb"
  return (← (← IO.getStderr).isTty) && !plain

/-- The time since a moment. -/
def elapsedSince (start : Nat) : IO String := do
  return Command.seconds ((← IO.monoMsNow) - start)

/-- Runs a program on more and more lines of input, until it does not ask for another one or there is
none.  The first `written` bytes and `noticed` notices were shown before. -/
partial def runAlong (colored : Bool) (path : String) (file : File)
    (input : List UInt8) (written noticed : Nat) : IO (Run Buffer) := do
  let run := runStream Command.fuel path file input Buffer.unlimited
  emit (run.sink.bytes.toList.drop written)
  say (Command.renderNotices colored (run.notices.drop noticed))
  if run.starved then
    let line ← readLine (← IO.getStdin)
    if line.isEmpty then return run
    else
      runAlong colored path file (input ++ line) run.sink.bytes.size run.notices.length
  else return run

/-- Lists the tokens of line after line. -/
partial def listAlong (colored : Bool) : IO UInt32 := do
  emit (Utf8.encode Listing.prompt)
  match Listing.react (← readLine (← IO.getStdin)) with
  | .goOn shown =>
      emit (Utf8.encode shown)
      listAlong colored
  | .leave shown =>
      emit (Utf8.encode shown)
      return 0
  | .unreadable kind =>
      say ((Problem.unreadable kind).render colored)
      return 1

/-- Carries out a command. -/
def serve (command : Command) : IO UInt32 := do
  let colored ← wantsColor
  let start ← IO.monoMsNow
  match command with
  | .run path quiet =>
      say (command.opening colored)
      let run ← runAlong colored path (← readFile path) [] 0 0
      let (code, last) := Command.closing colored quiet (← elapsedSince start) run
      say last
      return code.toUInt32
  | .check path _ =>
      let file ← readFile path
      let console := command.execute ⟨file, [], colored, ← elapsedSince start⟩
      say console.messages
      emit console.output
      return console.code.toUInt32
  | .list => listAlong colored

/-- How the program is called. -/
def usage : String :=
  "Usage: bisaya run [--quiet] <PATH>\n       bisaya check [--print-ast] <PATH>\n       bisaya rlpl\n"

end BisayaLang.Main

/-- Carries out the command that the arguments spell. -/
def main (args : List String) : IO UInt32 := do
  match BisayaLang.Command.ofArgs? args with
  | some command => BisayaLang.Main.serve command
  | none =>
      BisayaLang.Main.say BisayaLang.Main.usage
      return 2
