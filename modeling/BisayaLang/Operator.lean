/-
**Operators.**

The binary operators come in three families, by what they take and what they give: arithmetic takes
and gives numbers, a comparison takes any two values and gives a truth value, a connective takes and
gives truth values.  There are two unary operators, one for numbers and one for truth values.

Main definitions:

* `BisayaLang.Arithmetic`, `BisayaLang.Comparison`, `BisayaLang.Connective` — the families;
* `BisayaLang.BinaryOp`, `BisayaLang.UnaryOp` — the operators;
* `BisayaLang.BinaryOp.symbol` — the spelling of an operator;
* `BisayaLang.BinaryOp.precedence`, `BisayaLang.UnaryOp.precedence` — how tightly it binds.
-/

set_option relaxedAutoImplicit false
set_option autoImplicit false

namespace BisayaLang

/-- Operators that compute a number from two numbers. -/
inductive Arithmetic where
  | add | sub | mul | div | mod
  deriving DecidableEq, Inhabited

/-- Operators that compare two values. -/
inductive Comparison where
  | eq | ne | lt | le | gt | ge
  deriving DecidableEq, Inhabited

/-- Operators that join two truth values. -/
inductive Connective where
  | ug | o
  deriving DecidableEq, Inhabited

/-- An operator between two operands. -/
inductive BinaryOp where
  | arithmetic (op : Arithmetic)
  | comparison (op : Comparison)
  | connective (op : Connective)
  deriving DecidableEq, Inhabited

/-- An operator before its operand. -/
inductive UnaryOp where
  | minus | dili
  deriving DecidableEq, Inhabited

/-- The spelling of an arithmetic operator. -/
def Arithmetic.symbol : Arithmetic → String
  | .add => "+"
  | .sub => "-"
  | .mul => "*"
  | .div => "/"
  | .mod => "%"

/-- The spelling of a comparison. -/
def Comparison.symbol : Comparison → String
  | .eq => "=="
  | .ne => "<>"
  | .lt => "<"
  | .le => "<="
  | .gt => ">"
  | .ge => ">="

/-- The spelling of a connective. -/
def Connective.symbol : Connective → String
  | .ug => "UG"
  | .o => "O"

/-- The spelling of a binary operator. -/
def BinaryOp.symbol : BinaryOp → String
  | .arithmetic op => op.symbol
  | .comparison op => op.symbol
  | .connective op => op.symbol

/-- The spelling of a unary operator. -/
def UnaryOp.symbol : UnaryOp → String
  | .minus => "-"
  | .dili => "DILI"

/-- How tightly a binary operator binds: products before sums, sums before comparisons, those before
`UG`, and `O` last. -/
def BinaryOp.precedence : BinaryOp → Nat
  | .arithmetic .mul | .arithmetic .div | .arithmetic .mod => 7
  | .arithmetic .add | .arithmetic .sub => 6
  | .comparison _ => 4
  | .connective .ug => 3
  | .connective .o => 2

/-- How tightly a unary operator binds: a minus before everything, `DILI` after sums and before
comparisons. -/
def UnaryOp.precedence : UnaryOp → Nat
  | .minus => 8
  | .dili => 5

end BisayaLang
