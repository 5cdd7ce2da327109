/-
**Reading along a list of tokens.**

A parser reads tokens from left to right and may look at the next two without reading them.  It keeps
where the last token it read ended, because the span of a node ends there.  Behind the last token of
the list there is nothing but the end of the text.

Main definitions:

* `BisayaLang.Cursor` — the tokens that are left;
* `BisayaLang.Cursor.current`, `BisayaLang.Cursor.peek`, `BisayaLang.Cursor.peekSecond` — looking;
* `BisayaLang.Parse` — a parser: it gives a result or an error, and the cursor where it stopped;
* `BisayaLang.Parse.expect`, `BisayaLang.Parse.name`, `BisayaLang.Parse.assign` — reading one token;
* `BisayaLang.Parse.repeatWhile` — reading several parts of one kind.
-/

import BisayaLang.Grammar.Fault
import BisayaLang.Tree.Basic

set_option relaxedAutoImplicit false
set_option autoImplicit false

namespace BisayaLang

/-- The tokens that are left, and where the last token that was read ended. -/
structure Cursor where
  tokens : List Spanned
  lastEnd : Nat
  deriving Inhabited

namespace Cursor

/-- The cursor before a list of tokens. -/
def start (tokens : List Spanned) : Cursor := ⟨tokens, 0⟩

/-- The next token, which is the end when none is left. -/
def current (c : Cursor) : Token :=
  match c.tokens with
  | t :: _ => t.token
  | [] => .eof

/-- The token after the next. -/
def peek (c : Cursor) : Token :=
  match c.tokens with
  | _ :: t :: _ => t.token
  | _ => .eof

/-- The token two after the next. -/
def peekSecond (c : Cursor) : Token :=
  match c.tokens with
  | _ :: _ :: t :: _ => t.token
  | _ => .eof

/-- The span of the next token; when none is left, the place where the last one ended. -/
def span (c : Cursor) : Span :=
  match c.tokens with
  | t :: _ => t.span
  | [] => .point c.lastEnd

/-- The cursor after the next token. -/
def step (c : Cursor) : Cursor :=
  match c.tokens with
  | t :: rest => ⟨rest, t.span.stop⟩
  | [] => c

/-- The next two tokens start an assignment. -/
def atTarget (c : Cursor) : Bool := c.current.isName && c.peek.isAssign

end Cursor

/-- A parser.  Also an error leaves the cursor where the parser stopped. -/
abbrev Parse (α : Type) := EStateM SyntaxError Cursor α

namespace Parse

variable {α : Type}

/-- Stops with a fault at a place. -/
def fail (fault : SyntaxFault) (span : Span) : Parse α := throw ⟨fault, span⟩

/-- Stops with a fault at the next token. -/
def failHere (fault : SyntaxFault) : Parse α := do fail fault (← get).span

/-- Reads a token, whatever it is. -/
def step : Parse Unit := modify Cursor.step

/-- Where the last token ended. -/
def lastEnd : Parse Nat := return (← get).lastEnd

/-- Reads the given token. -/
def expect (token : Token) : Parse Span := do
  match (← get).tokens with
  | [] => failHere (.unexpectedEnd [token.literal])
  | t :: _ =>
      if t.token = token then
        step
        return t.span
      else if t.token = .eof then fail (.unexpectedEnd [token.literal]) t.span
      else fail (.unexpectedToken t.token [token.literal]) t.span

/-- Reads a name. -/
def name : Parse Name := do
  let c ← get
  match c.current with
  | .name text =>
      step
      return ⟨text, c.span⟩
  | found => failHere (.expectedName found)

/-- Reads one of the two spellings of assignment. -/
def assign : Parse Span := do
  let c ← get
  if c.current.isAssign then
    step
    return c.span
  else expect (.mark .assign)

/-- Reads parts as long as the cursor looks like another one, at most `fuel` of them. -/
def repeatF (more : Cursor → Bool) (part : Parse α) : (fuel : Nat) → Parse (List α)
  | 0 => return []
  | fuel + 1 => do
      if more (← get) then
        let a ← part
        let rest ← repeatF more part fuel
        return a :: rest
      else return []

/-- Reads parts as long as the cursor looks like another one.  Each part reads at least one token, so
that there are at most as many parts as tokens. -/
def repeatWhile (more : Cursor → Bool) (part : Parse α) : Parse (List α) := do
  repeatF more part (← get).tokens.length

/-- Reads a part, and more of them with commas between. -/
def commaList (part : Parse α) : Parse (List α) := do
  let first ← part
  let rest ← repeatWhile (fun c => c.current == .mark .comma) (do step; part)
  return first :: rest

end Parse

end BisayaLang
