/-
**Trees of programs.**

A program is a list of statements.  Conditionals and loops hold blocks, which are lists of statements
again.  Every node carries the span of the source it was read from.

Main definitions:

* `BisayaLang.Name` — an identifier with its place;
* `BisayaLang.Expr` — expressions;
* `BisayaLang.PrintItem`, `BisayaLang.Declared`, `BisayaLang.Assignment` — parts of statements;
* `BisayaLang.Stmt`, `BisayaLang.Block`, `BisayaLang.Otherwise` — statements, blocks, and what follows
  the first branch of a conditional;
* `BisayaLang.Program` — a program.
-/

import BisayaLang.Token.Basic

set_option relaxedAutoImplicit false
set_option autoImplicit false

namespace BisayaLang

/-- An identifier. -/
structure Name where
  text : String
  span : Span
  deriving DecidableEq, Inhabited

/-- Expressions. -/
inductive Expr where
  | var (name : Name)
  /-- a number, with the digits that spell it -/
  | number (value : Float) (lexeme : String) (span : Span)
  | bool (value : Bool) (span : Span)
  | text (content : String) (span : Span)
  | unary (op : UnaryOp) (operand : Expr) (span : Span)
  | binary (op : BinaryOp) (left right : Expr) (span : Span)
  /-- an expression in brackets -/
  | group (inner : Expr) (span : Span)
  deriving Inhabited

/-- The part of the source that an expression was read from. -/
def Expr.span : Expr → Span
  | .var name => name.span
  | .number _ _ span | .bool _ span | .text _ span | .unary _ _ span | .binary _ _ _ span
  | .group _ span => span

/-- What a print statement shows. -/
inductive PrintItem where
  /-- text as it stands -/
  | text (content : String) (span : Span)
  /-- the value of a variable -/
  | var (name : Name)
  /-- the value of an expression -/
  | expr (e : Expr)
  /-- the end of a line -/
  | lineBreak (span : Span)

/-- A variable of a declaration, with its first value. -/
structure Declared where
  name : Name
  value : Option Expr

/-- An assignment of one value to several variables, the leftmost first. -/
structure Assignment where
  targets : List Name
  value : Expr
  span : Span

mutual

/-- Statements. -/
inductive Stmt where
  | declaration (type : DataType) (vars : List Declared) (span : Span)
  | assignment (a : Assignment)
  | print (items : List PrintItem) (span : Span)
  | input (names : List Name) (span : Span)
  | conditional (test : Expr) (body : Block) (rest : Otherwise) (span : Span)
  | loop (first : Assignment) (test : Expr) (counter : Name) (step : Step) (body : Block)
      (span : Span)

/-- Statements between braces. -/
inductive Block where
  | mk (body : List Stmt) (span : Span)

/-- What a conditional does when its first test fails. -/
inductive Otherwise where
  | nothing
  /-- another test -/
  | branch (test : Expr) (body : Block) (rest : Otherwise)
  /-- a block without a test -/
  | always (body : Block)

end

/-- The statements of a block. -/
def Block.body : Block → List Stmt
  | .mk body _ => body

/-- The part of the source that a block was read from. -/
def Block.span : Block → Span
  | .mk _ span => span

/-- The part of the source that a statement was read from. -/
def Stmt.span : Stmt → Span
  | .assignment a => a.span
  | .declaration _ _ span | .print _ span | .input _ span | .conditional _ _ _ span
  | .loop _ _ _ _ _ span => span

/-- A program. -/
structure Program where
  body : List Stmt
  span : Span

/-- A program, and the span of the tokens behind its end, if there are any. -/
structure Parsed where
  program : Program
  trailing : Option Span

end BisayaLang
