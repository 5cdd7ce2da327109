/-
**Expressions.**

An expression is read with two stacks: operands that are complete, and operators and opening brackets
that still wait.  Where an operand is expected, the next token is one, or is a unary operator or an
opening bracket that waits for one.  Where an operator is expected, a binary operator first completes
all waiting operators that bind at least as tightly, a closing bracket completes everything up to its
opening bracket, and any other token ends the expression.

`DILI` is the negation if an operand follows, and else a truth value.  A name that starts the next
assignment does not count as an operand.

Main definitions:

* `BisayaLang.Pending` — what waits on the operator stack;
* `BisayaLang.Stacks` — the state of the reading;
* `BisayaLang.Stacks.shift` — what one token does to it;
* `BisayaLang.Parse.expression` — reads an expression.
-/

import BisayaLang.Grammar.Cursor
import BisayaLang.Number.Reading

set_option relaxedAutoImplicit false
set_option autoImplicit false

namespace BisayaLang

/-- The two shapes of brackets. -/
inductive Bracket where
  | round | square
  deriving DecidableEq

/-- What waits for operands: an operator, or an opening bracket with its place. -/
inductive Pending where
  | binary (op : BinaryOp) (span : Span)
  | unary (op : UnaryOp) (start : Nat)
  | opening (bracket : Bracket) (start : Nat)

/-- How tightly a waiting operator binds.  An opening bracket is no operator. -/
def Pending.precedence? : Pending → Option Nat
  | .binary op _ => some op.precedence
  | .unary op _ => some op.precedence
  | .opening .. => none

/-- Takes the last operand. -/
def popOperand (span : Span) : List Expr → Except SyntaxError (Expr × List Expr)
  | e :: rest => .ok (e, rest)
  | [] => .error ⟨.expectedValue .eof, span⟩

/-- Completes a waiting operator with the operands it takes. -/
def Pending.complete (operands : List Expr) : Pending → Except SyntaxError (List Expr)
  | .binary op span => do
      let (right, operands) ← popOperand span operands
      let (left, operands) ← popOperand span operands
      return .binary op left right (left.span.cover right.span) :: operands
  | .unary op start => do
      let (e, operands) ← popOperand (.point start) operands
      return .unary op e ⟨start, e.span.stop⟩ :: operands
  | .opening _ start => .error ⟨.mismatchedBrackets, ⟨start, start + 1⟩⟩

/-- Completes the waiting operators that bind at least as tightly as `level`, up to the last opening
bracket. -/
def reduceWhile (level : Nat) :
    (operands : List Expr) → List Pending → Except SyntaxError (List Expr × List Pending)
  | operands, [] => .ok (operands, [])
  | operands, p :: waiting =>
      match p.precedence? with
      | none => .ok (operands, p :: waiting)
      | some q =>
          if level ≤ q then do reduceWhile level (← p.complete operands) waiting
          else .ok (operands, p :: waiting)

/-- Completes everything that waits. -/
def reduceAll : (operands : List Expr) → List Pending → Except SyntaxError (List Expr)
  | operands, [] => .ok operands
  | operands, p :: waiting => do reduceAll (← p.complete operands) waiting

/-- Completes what stands in brackets, and makes a group of it. -/
def closeGroup (closing : Bracket) (stop : Nat) (operands : List Expr) (waiting : List Pending) :
    Except SyntaxError (List Expr × List Pending) := do
  match ← reduceWhile 0 operands waiting with
  | (operands, .opening bracket start :: waiting) =>
      if bracket = closing then
        let (e, operands) ← popOperand ⟨start, stop⟩ operands
        return (.group e ⟨start, stop⟩ :: operands, waiting)
      else .error ⟨.mismatchedBrackets, ⟨start, stop⟩⟩
  | _ => .error ⟨.mismatchedBrackets, ⟨stop - 1, stop⟩⟩

/-- The state of reading an expression. -/
structure Stacks where
  operands : List Expr
  waiting : List Pending
  /-- the number of brackets that are open -/
  depth : Nat
  /-- an operand comes next, not an operator -/
  expectsOperand : Bool

namespace Stacks

/-- Before the first token. -/
def start : Stacks := ⟨[], [], 0, true⟩

/-- Adds a complete operand. -/
def pushOperand (s : Stacks) (e : Expr) : Stacks :=
  { s with operands := e :: s.operands, expectsOperand := false }

/-- Adds a unary operator. -/
def pushUnary (s : Stacks) (op : UnaryOp) (start : Nat) : Stacks :=
  { s with waiting := .unary op start :: s.waiting }

/-- Opens a bracket. -/
def openBracket (s : Stacks) (bracket : Bracket) (start : Nat) : Stacks :=
  { s with waiting := .opening bracket start :: s.waiting, depth := s.depth + 1 }

/-- Closes a bracket. -/
def closeBracket (s : Stacks) (bracket : Bracket) (stop : Nat) : Except SyntaxError Stacks := do
  let (operands, waiting) ← closeGroup bracket stop s.operands s.waiting
  return { s with operands, waiting, depth := s.depth - 1 }

/-- Adds a binary operator behind all that binds at least as tightly. -/
def pushBinary (s : Stacks) (op : BinaryOp) (span : Span) : Except SyntaxError Stacks := do
  let (operands, waiting) ← reduceWhile op.precedence s.operands s.waiting
  return { s with operands, waiting := .binary op span :: waiting, expectsOperand := true }

/-- `DILI` negates what follows: an operand that is not the target of the next assignment. -/
def negates (c : Cursor) : Bool :=
  c.peek.startsOperand && !(c.peek.isName && c.peekSecond.isAssign)

/-- What the next token does where an operand is expected. -/
def shiftOperand (s : Stacks) (c : Cursor) : Except SyntaxError Stacks :=
  match c.current with
  | .integer lexeme | .decimal lexeme =>
      match Number.readFloat? lexeme.toList with
      | some value => .ok (s.pushOperand (.number value lexeme c.span))
      | none => .error ⟨.expectedValue (.integer lexeme), c.span⟩
  | .text content => .ok (s.pushOperand (.text content c.span))
  | .oo => .ok (s.pushOperand (.bool true c.span))
  | .dili =>
      if negates c then .ok (s.pushUnary .dili c.span.start)
      else .ok (s.pushOperand (.bool false c.span))
  | .op (.arithmetic .sub) => .ok (s.pushUnary .minus c.span.start)
  | .name text => .ok (s.pushOperand (.var ⟨text, c.span⟩))
  | .mark .lparen => .ok (s.openBracket .round c.span.start)
  | .mark .lbracket => .ok (s.openBracket .square c.span.start)
  | found =>
      if s.operands.isEmpty && s.waiting.isEmpty then .error ⟨.emptyExpression, c.span⟩
      else .error ⟨.expectedValue found, c.span⟩

/-- What the next token does where an operator is expected; `none` if it does not belong to the
expression. -/
def shiftOperator? (s : Stacks) (c : Cursor) : Except SyntaxError (Option Stacks) :=
  match c.current with
  | .mark .rparen =>
      if 0 < s.depth then some <$> s.closeBracket .round c.span.stop else .ok none
  | .mark .rbracket =>
      if 0 < s.depth then some <$> s.closeBracket .square c.span.stop else .ok none
  | .op op => some <$> s.pushBinary op c.span
  | _ => .ok none

/-- What the next token does; `none` if it does not belong to the expression. -/
def shift (s : Stacks) (c : Cursor) : Except SyntaxError (Option Stacks) :=
  if s.expectsOperand then some <$> s.shiftOperand c else s.shiftOperator? c

/-- The expression that the stacks hold when it ends before the span `here`. -/
def finish (s : Stacks) (here : Span) : Except SyntaxError Expr := do
  let operands ← reduceAll s.operands s.waiting
  let (e, operands) ← popOperand here operands
  if operands.isEmpty then return e else .error ⟨.mismatchedBrackets, e.span⟩

/-- Reads tokens as long as they belong to the expression. -/
def read : (tokens : List Spanned) → (lastEnd : Nat) → Stacks →
    EStateM.Result SyntaxError Cursor Expr
  | tokens, lastEnd, s =>
      match tokens, s.shift ⟨tokens, lastEnd⟩ with
      | tokens, .error e => .error e ⟨tokens, lastEnd⟩
      | t :: rest, .ok (some s') => read rest t.span.stop s'
      | tokens, .ok _ =>
          match s.finish (Cursor.span ⟨tokens, lastEnd⟩) with
          | .ok e => .ok e ⟨tokens, lastEnd⟩
          | .error e => .error e ⟨tokens, lastEnd⟩
termination_by structural tokens => tokens

end Stacks

/-- Reads an expression. -/
def Parse.expression : Parse Expr := fun c => Stacks.start.read c.tokens c.lastEnd

end BisayaLang
