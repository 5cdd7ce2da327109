/-
**Programs.**

A program is a list of statements between `SUGOD` and `KATAPUSAN`.  Tokens behind it are no error, but
they mean nothing; their span is kept.

Main definitions:

* `BisayaLang.Parse.program` — reads a program;
* `BisayaLang.Parse.whole` — reads a program and all tokens behind it;
* `BisayaLang.parseTokens`, `BisayaLang.parseProgram` — the program of a list of tokens, of a text;
* `BisayaLang.parseNarrow` — the program of a text, with offsets of 32 bits.
-/

import BisayaLang.Grammar.Statement
import BisayaLang.Token.Narrow

set_option relaxedAutoImplicit false
set_option autoImplicit false

namespace BisayaLang

/-- Steps over all tokens before the end. -/
def Cursor.skipToEnd : (tokens : List Spanned) → (lastEnd : Nat) → Cursor
  | [], lastEnd => ⟨[], lastEnd⟩
  | t :: rest, lastEnd =>
      if t.token = .eof then ⟨t :: rest, lastEnd⟩ else skipToEnd rest t.span.stop

namespace Parse

/-- The statements of a program go on. -/
def moreInProgram (c : Cursor) : Bool := c.current != .word .katapusan && c.current != .eof

/-- Reads the word that starts a program. -/
def sugod : Parse Span := do
  if (← get).current = .word .sugod then expect (.word .sugod) else failHere .expectedSugod

/-- Reads the word that ends a program. -/
def katapusan : Parse Span := do
  if (← get).current = .eof then failHere .expectedKatapusan else expect (.word .katapusan)

/-- Reads a program. -/
def program : Parse Program := do
  let first ← sugod
  let body ← repeatWhile moreInProgram statement
  let last ← katapusan
  return ⟨body, ⟨first.start, last.stop⟩⟩

/-- Reads all tokens that are left, and gives their span. -/
def trailing : Parse (Option Span) := do
  let c ← get
  if c.current = .eof then return none
  else
    set (Cursor.skipToEnd c.tokens c.lastEnd)
    return some ⟨c.span.start, ← lastEnd⟩

/-- Reads a program and all tokens behind it. -/
def whole : Parse Parsed := do
  let program ← program
  let trailing ← trailing
  return ⟨program, trailing⟩

/-- Runs a parser on a list of tokens, and forgets where it stopped. -/
def runOn {α : Type} (p : Parse α) (tokens : List Spanned) : Except SyntaxError α :=
  match p.run (.start tokens) with
  | .ok a _ => .ok a
  | .error e _ => .error e

end Parse

/-- The program of a list of tokens. -/
def parseTokens (tokens : List Spanned) : Except SyntaxError Parsed := Parse.whole.runOn tokens

/-- The program of what reading a text came to. -/
def Scan.parse (s : Scan) : Except SyntaxError Parsed :=
  match s.result with
  | .ok tokens => parseTokens tokens
  | .error e => .error (.ofLexError e)

/-- The program of a text. -/
def parseProgram (text : String) : Except SyntaxError Parsed :=
  (Scanner.start text.toList).scan.parse

/-- The program of a text, with offsets of 32 bits. -/
def parseNarrow (text : String) : Except SyntaxError Parsed :=
  match tokenizeNarrow text with
  | .ok tokens => parseTokens tokens
  | .error e => .error (.ofLexError e)

end BisayaLang
