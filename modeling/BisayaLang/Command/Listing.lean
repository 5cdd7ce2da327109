/-
**Listing tokens line by line.**

The loop that lists tokens shows a prompt, reads a line, and lists the tokens of the line with their
spans, until the input ends or a line says to leave.

Main definitions:

* `BisayaLang.Listing.ofLine` — the tokens of a line;
* `BisayaLang.Listing.react` — what a line leads to;
* `BisayaLang.Listing.session` — everything that is shown, and whether the input could be read.
-/

import BisayaLang.Execution.Input
import BisayaLang.Report.Snippet
import BisayaLang.Token.Listing
import BisayaLang.Token.Message

set_option relaxedAutoImplicit false
set_option autoImplicit false

namespace BisayaLang.Listing

/-- What is shown before a line is read. -/
def prompt : String := "bisaya> "

/-- A text at the left end of so many columns. -/
def alignLeft (width : Nat) (s : String) : String := s ++ Snippet.times (width - s.length) ' '

/-- A token with its span. -/
def ofToken (t : Spanned) : String :=
  Snippet.alignRight 4 (toString t.span.start) ++ ".." ++ alignLeft 4 (toString t.span.stop) ++ " " ++
    t.token.listing ++ "\n"

/-- An error with its span. -/
def ofError (e : LexError) : String :=
  "[at " ++ e.span.text ++ "] Lexical Error: " ++ e.fault.title ++ "\n" ++
    String.intercalate "\n" e.fault.lines ++ "\n"

/-- The tokens of a line up to its end or its first error. -/
def ofLine (line : List Char) : String :=
  let scan := (Scanner.start line).scan
  let tokens := scan.tokens.filter fun t => t.token != .eof
  String.join (tokens.map ofToken) ++ (scan.error.map ofError).getD ""

/-- A line without the last of the given characters. -/
def dropLast (c : Char) (line : List Char) : List Char :=
  if line.getLast? = some c then line.dropLast else line

/-- What a line of input leads to. -/
inductive Reaction where
  /-- something is shown, and the next line is read -/
  | goOn (shown : String)
  /-- the loop ends, and something is shown last -/
  | leave (shown : String)
  /-- the line cannot be read -/
  | unreadable (kind : IoKind)

/-- The reaction to a line, which is empty only when the input has ended. -/
def react (bytes : List UInt8) : Reaction :=
  if bytes.isEmpty then .leave "\n"
  else
    match Utf8.decode? bytes with
    | none => .unreadable .invalidData
    | some text =>
        let line := dropLast '\r' (dropLast '\n' text)
        if line = ".exit".toList then .leave ""
        else .goOn (if line.isEmpty then "" else ofLine line)

/-- Reads line after line, at most `fuel` of them before the input ends. -/
def sessionF : (fuel : Nat) → List UInt8 → String × Option IoKind
  | 0, _ => (prompt ++ "\n", none)
  | fuel + 1, input =>
      let (line, input) := Input.takeLine input
      match react line with
      | .leave shown => (prompt ++ shown, none)
      | .unreadable kind => (prompt, some kind)
      | .goOn shown =>
          let (rest, failure) := sessionF fuel input
          (prompt ++ shown ++ rest, failure)

/-- Everything that is shown for an input.  There are no more lines than bytes. -/
def session (input : List UInt8) : String × Option IoKind := sessionF input.length input

end BisayaLang.Listing
