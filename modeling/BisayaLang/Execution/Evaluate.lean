/-
**Evaluation.**

What an expression means depends on what is asked of it.  A `NUMERO` or `TIPIK` asks for a number, a
`TINUOD` or a test for a truth value, a `LETRA` for a text; a comparison and a print statement ask for
the value that the expression has by itself.  Each question has an evaluator of its own.

Main definitions:

* `BisayaLang.Expr.evalNumber`, `BisayaLang.Expr.evalTruth`, `BisayaLang.Expr.evalValue` — the number,
  the truth value and the value of an expression;
* `BisayaLang.Expr.evalText` — the text of an expression, which is never computed;
* `BisayaLang.Expr.display` — an expression as a print statement shows it;
* `BisayaLang.Expr.valueFor` — the value of an expression for a variable of some type.
-/

import BisayaLang.Execution.Failure
import BisayaLang.Store
import BisayaLang.Tree.Basic

set_option relaxedAutoImplicit false
set_option autoImplicit false

namespace BisayaLang

/-- The result of an evaluation. -/
abbrev Eval (α : Type) := Except RuntimeError α

/-- The variable that a name stands for. -/
def Store.find (s : Store) (name : Name) : Eval Variable :=
  match s.get? name.text with
  | some v => .ok v
  | none => .error ⟨.undefinedVariable name.text, name.span⟩

/-- The number that a value stands for. -/
def Value.asNumber (v : Value) (span : Span) : Eval Float :=
  match v.toNumber? with
  | some x => .ok x
  | none => .error ⟨.notANumber v.display, span⟩

/-- The number that a quoted text stands for. -/
def textNumber (content : String) (span : Span) : Eval Float :=
  match Value.ofText? content with
  | some x => .ok x
  | none => .error ⟨.notANumber content, span⟩

/-- The truth value that a quoted text is a word for. -/
def textTruth (content : String) (span : Span) : Eval Bool :=
  if content = truthWord true then .ok true
  else if content = truthWord false then .ok false
  else .error ⟨.invalidBooleanLiteral content, span⟩

/-- Computes with two numbers.  Nothing can be divided by zero. -/
def Arithmetic.apply (op : Arithmetic) (span : Span) (x y : Float) : Eval Float :=
  match op with
  | .add => .ok (x + y)
  | .sub => .ok (x - y)
  | .mul => .ok (x * y)
  | .div => if y == 0.0 then .error ⟨.divisionByZero .div, span⟩ else .ok (x / y)
  | .mod => if y == 0.0 then .error ⟨.divisionByZero .mod, span⟩ else .ok (Number.remainder x y)

/-- Joins two truth values. -/
def Connective.apply : Connective → Bool → Bool → Bool
  | .ug, a, b => a && b
  | .o, a, b => a || b

/-- Compares two truth values, which are equal or not but have no order. -/
def Comparison.applyTruth (op : Comparison) (span : Span) (a b : Bool) : Eval Bool :=
  match op with
  | .eq => .ok (a == b)
  | .ne => .ok (a != b)
  | op => .error ⟨.invalidBooleanComparison op, span⟩

/-- Compares two values. -/
def Comparison.apply (op : Comparison) (span : Span) (a b : Value) : Eval Bool :=
  match a, b with
  | .truth a, .truth b => op.applyTruth span a b
  | a, b => .ok (op.holds (a.order? b))

namespace Expr

mutual

/-- The number of an expression. -/
def evalNumber (s : Store) : Expr → Eval Float
  | .number x _ _ => .ok x
  | .bool b _ => .ok (Number.ofBool b)
  | .text content span => textNumber content span
  | .var name => do (← s.find name).value.asNumber name.span
  | .group e _ => evalNumber s e
  | .unary .minus e _ => do return -(← evalNumber s e)
  | .unary .dili e _ => do return Number.ofBool (!(← evalTruth s e))
  | .binary (.arithmetic op) l r span => do
      let x ← evalNumber s l
      let y ← evalNumber s r
      op.apply span x y
  | .binary (.comparison op) l r span => do
      let a ← evalValue s l
      let b ← evalValue s r
      return Number.ofBool (← op.apply span a b)
  | .binary (.connective op) l r _ => do
      let a ← evalTruth s l
      let b ← evalTruth s r
      return Number.ofBool (op.apply a b)

/-- The truth value of an expression. -/
def evalTruth (s : Store) : Expr → Eval Bool
  | .number x _ _ => .ok (x != 0.0)
  | .bool b _ => .ok b
  | .text content span => textTruth content span
  | .var name => do return (← s.find name).value.truthy
  | .group e _ => evalTruth s e
  | .unary .minus e _ => do return -(← evalNumber s e) != 0.0
  | .unary .dili e _ => do return !(← evalTruth s e)
  | .binary (.arithmetic op) l r span => do
      let x ← evalNumber s l
      let y ← evalNumber s r
      return (← op.apply span x y) != 0.0
  | .binary (.comparison op) l r span => do
      let a ← evalValue s l
      let b ← evalValue s r
      op.apply span a b
  | .binary (.connective op) l r _ => do
      let a ← evalTruth s l
      let b ← evalTruth s r
      return op.apply a b

/-- The value that an expression has by itself: arithmetic gives a number, a comparison or a connective
a truth value, and everything else keeps its own. -/
def evalValue (s : Store) : Expr → Eval Value
  | .number x _ _ => .ok (.number x)
  | .bool b _ => .ok (.truth b)
  | .text content _ => .ok (.text content)
  | .var name => do return (← s.find name).value
  | .group e _ => evalValue s e
  | .unary .minus e _ => do return .number (-(← evalNumber s e))
  | .unary .dili e _ => do return .truth (!(← evalTruth s e))
  | .binary (.arithmetic op) l r span => do
      let x ← evalNumber s l
      let y ← evalNumber s r
      return .number (← op.apply span x y)
  | .binary (.comparison op) l r span => do
      let a ← evalValue s l
      let b ← evalValue s r
      return .truth (← op.apply span a b)
  | .binary (.connective op) l r _ => do
      let a ← evalTruth s l
      let b ← evalTruth s r
      return .truth (op.apply a b)

end

/-- The text of an expression: a quoted text, or a variable that holds one. -/
def evalText (s : Store) : Expr → Eval String
  | .text content _ => .ok content
  | .var name => do
      match (← s.find name).value with
      | .text t => return t
      | v => .error ⟨.expectedText name.text v.kind, name.span⟩
  | .group e _ => evalText s e
  | e => .error ⟨.invalidCharacterExpression, e.span⟩

/-- An expression as a print statement shows it.  A variable, in brackets or not, is shown by its
type. -/
def display (s : Store) : Expr → Eval String
  | .var name => do
      let v ← s.find name
      return v.value.displayAs v.type
  | .group e _ => display s e
  | e => do return (← evalValue s e).display

/-- The value of an expression for a variable of some type. -/
def valueFor (s : Store) (type : DataType) (e : Expr) : Eval Value :=
  match type with
  | .numero | .tipik => Value.number <$> evalNumber s e
  | .tinuod => Value.truth <$> evalTruth s e
  | .letra => Value.text <$> evalText s e

end Expr

end BisayaLang
