/-
**Statements.**

No mark ends a statement: a statement ends where the next token cannot belong to it.  Statements that
hold blocks are read by a parser that is given the parser for the statements inside; tying the knot
takes as much fuel as there are tokens, since every block stands behind at least one token.

Main definitions:

* `BisayaLang.Parse.declaration`, `BisayaLang.Parse.assignment`, `BisayaLang.Parse.print`,
  `BisayaLang.Parse.input` — the statements without blocks;
* `BisayaLang.Parse.ItemRule`, `BisayaLang.Parse.itemRule` — what a token means in a print statement;
* `BisayaLang.Parse.blockOf`, `BisayaLang.Parse.conditionalOf`, `BisayaLang.Parse.loopOf` — blocks and
  the statements that hold them, given the parser of the statements inside;
* `BisayaLang.Parse.statement` — any statement;
* `BisayaLang.Parse.block`, `BisayaLang.Parse.conditional`, `BisayaLang.Parse.loop` — with statements
  of any kind inside.
-/

import BisayaLang.Grammar.Expression

set_option relaxedAutoImplicit false
set_option autoImplicit false

namespace BisayaLang.Parse

/-! ### Declarations, assignments, input -/

/-- Reads the name of a declared variable and its first value. -/
def declared : Parse Declared := do
  let name ← name
  if (← get).current.isAssign then
    step
    let value ← expression
    return ⟨name, some value⟩
  else return ⟨name, none⟩

/-- Reads the word for a type. -/
def dataType : Parse DataType := do
  let c ← get
  match c.current.dataType? with
  | some type =>
      step
      return type
  | none => failHere (.expectedType c.current)

/-- Reads a declaration. -/
def declaration : Parse Stmt := do
  let first ← expect (.word .mugna)
  let type ← dataType
  let vars ← commaList declared
  return .declaration type vars ⟨first.start, ← lastEnd⟩

/-- Reads the target of an assignment and its mark. -/
def target : Parse Name := do
  let name ← name
  let _ ← assign
  return name

/-- Reads an assignment to one or more targets. -/
def assignment : Parse Assignment := do
  let first ← target
  let others ← repeatWhile Cursor.atTarget target
  let value ← expression
  return ⟨first :: others, value, ⟨first.span.start, value.span.stop⟩⟩

/-- Reads an input statement. -/
def input : Parse Stmt := do
  let first ← expect (.word .dawat)
  let _ ← expect (.mark .colon)
  let names ← commaList name
  return .input names ⟨first.start, ← lastEnd⟩

/-! ### Printing -/

/-- What a token means in a print statement. -/
inductive ItemRule where
  /-- the token does not belong to the statement -/
  | stop
  /-- from here on every token stands for its text, or no longer -/
  | escape (on : Bool)
  /-- the token only separates -/
  | skip
  /-- the token is an item -/
  | item (i : PrintItem)
  /-- an expression starts here -/
  | expression

/-- What the next token means in a print statement, inside an escape or outside. -/
def itemRule (escaped : Bool) (c : Cursor) : ItemRule :=
  let literal := ItemRule.item (.text c.current.literal c.span)
  match c.current with
  | .eof | .mark .rbrace | .word _ | .type _ => .stop
  | .mark .lbracket => if escaped then literal else .escape true
  | .mark .rbracket => if escaped then .escape false else literal
  | .mark .ampersand => if escaped then literal else .skip
  | .mark .dollar => if escaped then literal else .item (.lineBreak c.span)
  | .mark .lparen => if escaped then literal else .expression
  | .integer _ | .decimal _ => if !escaped && c.peek.isArithmetic then .expression else literal
  | .name text =>
      if escaped then literal
      else if c.peek.isAssign then .stop
      else if c.peek.isArithmetic then .expression
      else .item (.var ⟨text, c.span⟩)
  | _ => literal

/-- Reads at most `fuel` items and separators. -/
def itemsF : (fuel : Nat) → (escaped : Bool) → Parse (List PrintItem)
  | 0, _ => return []
  | fuel + 1, escaped => do
      match itemRule escaped (← get) with
      | .stop => return []
      | .escape on =>
          step
          itemsF fuel on
      | .skip =>
          step
          itemsF fuel escaped
      | .item i =>
          step
          let rest ← itemsF fuel escaped
          return i :: rest
      | .expression =>
          let e ← expression
          let rest ← itemsF fuel escaped
          return .expr e :: rest

/-- Reads the items of a print statement.  Each step reads at least one token. -/
def items : Parse (List PrintItem) := do itemsF (← get).tokens.length false

/-- Reads a print statement. -/
def print : Parse Stmt := do
  let first ← expect (.word .ipakita)
  let _ ← expect (.mark .colon)
  let items ← items
  return .print items ⟨first.start, ← lastEnd⟩

/-! ### Blocks -/

/-- The statements of a block go on. -/
def moreInBlock (c : Cursor) : Bool := c.current != .mark .rbrace && c.current != .eof

/-- Reads a block. -/
def blockOf (statement : Parse Stmt) : Parse Block := do
  let first ← expect (.word .pundok)
  let _ ← expect (.mark .lbrace)
  let body ← repeatWhile moreInBlock statement
  let last ← expect (.mark .rbrace)
  return .mk body ⟨first.start, last.stop⟩

/-- Reads a test in brackets and the block behind it. -/
def branchOf (statement : Parse Stmt) : Parse (Expr × Block) := do
  let _ ← expect (.mark .lparen)
  let test ← expression
  let _ ← expect (.mark .rparen)
  let body ← blockOf statement
  return (test, body)

/-- The next two tokens are `KUNG` and the given one. -/
def atKung (next : Token) (c : Cursor) : Bool :=
  c.current == .word .kung && c.peek == next

/-- Reads the block behind `KUNG WALA`, if there is one. -/
def lastBranchOf (statement : Parse Stmt) : Parse Otherwise := do
  if atKung (.word .wala) (← get) then
    step
    step
    let body ← blockOf statement
    return .always body
  else return .nothing

/-- Reads a conditional. -/
def conditionalOf (statement : Parse Stmt) : Parse Stmt := do
  let first ← expect (.word .kung)
  let (test, body) ← branchOf statement
  let others ← repeatWhile (atKung .dili) (do step; step; branchOf statement)
  let last ← lastBranchOf statement
  let rest := others.foldr (fun (test, body) rest => .branch test body rest) last
  return .conditional test body rest ⟨first.start, ← lastEnd⟩

/-- Reads the step of a loop. -/
def loopStep : Parse Step := do
  let c ← get
  match c.current with
  | .step s =>
      step
      return s
  | found => failHere (.expectedStep found)

/-- Reads a loop. -/
def loopOf (statement : Parse Stmt) : Parse Stmt := do
  let first ← expect (.word .alang)
  let _ ← expect (.word .sa)
  let _ ← expect (.mark .lparen)
  let start ← assignment
  let _ ← expect (.mark .comma)
  let test ← expression
  let _ ← expect (.mark .comma)
  let counter ← name
  let step ← loopStep
  let _ ← expect (.mark .rparen)
  let body ← blockOf statement
  return .loop start test counter step body ⟨first.start, body.span.stop⟩

/-! ### Any statement -/

/-- What a statement can start with. -/
def statementStarts : List String :=
  ["MUGNA", "IPAKITA", "DAWAT", "KUNG", "ALANG SA", "an assignment"]

/-- Reads a statement with at most `fuel` statements inside each other. -/
def statementF : (fuel : Nat) → Parse Stmt
  | 0 => failHere (.unexpectedEnd ["a statement"])
  | fuel + 1 => do
      match (← get).current with
      | .word .mugna => declaration
      | .name _ => .assignment <$> assignment
      | .word .ipakita => print
      | .word .dawat => input
      | .word .kung => conditionalOf (statementF fuel)
      | .word .alang => loopOf (statementF fuel)
      | .word .sugod => failHere (.misplacedMarker (.word .sugod))
      | .word .katapusan => failHere (.misplacedMarker (.word .katapusan))
      | .eof => failHere (.unexpectedEnd ["a statement"])
      | found => failHere (.unexpectedToken found statementStarts)

/-- A parser that may use as much fuel as there are tokens. -/
def fueled {α : Type} (p : (fuel : Nat) → Parse α) : Parse α := do p (← get).tokens.length

/-- Reads a statement. -/
def statement : Parse Stmt := fueled statementF

/-- Reads a block. -/
def block : Parse Block := fueled fun fuel => blockOf (statementF fuel)

/-- Reads a conditional. -/
def conditional : Parse Stmt := fueled fun fuel => conditionalOf (statementF fuel)

/-- Reads a loop. -/
def loop : Parse Stmt := fueled fun fuel => loopOf (statementF fuel)

end BisayaLang.Parse
