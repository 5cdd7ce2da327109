/-
**Failures and warnings of a running program.**

Main definitions:

* `BisayaLang.RuntimeFault`, `BisayaLang.RuntimeError` — why a program cannot go on, and where;
* `BisayaLang.RuntimeFault.title`, `BisayaLang.RuntimeFault.message` — the words for it;
* `BisayaLang.Warning` — what is worth a remark but does not stop the program.
-/

import BisayaLang.Operator
import BisayaLang.Source.IoKind
import BisayaLang.Source.Span
import BisayaLang.Value.DataType

set_option relaxedAutoImplicit false
set_option autoImplicit false

namespace BisayaLang

/-- Why a program cannot go on. -/
inductive RuntimeFault where
  | undefinedVariable (name : String)
  /-- two targets of one assignment have different types -/
  | typeMismatch (outer : String) (outerType : DataType) (inner : String) (innerType : DataType)
  | notANumber (value : String)
  | invalidBooleanLiteral (value : String)
  /-- text would have to be computed -/
  | invalidCharacterExpression
  | expectedText (name : String) (found : String)
  /-- truth values have no order -/
  | invalidBooleanComparison (op : Comparison)
  | divisionByZero (op : Arithmetic)
  | insufficientInput (expected got : Nat)
  | invalidInputFormat (name : String) (type : DataType) (value : String)
  | invalidBooleanInput (value : String)
  | nonNumericCounter (name : String) (found : String)
  | io (kind : IoKind)
  deriving DecidableEq

/-- A fault and its place. -/
structure RuntimeError where
  fault : RuntimeFault
  span : Span
  deriving DecidableEq

namespace RuntimeFault

/-- What is wrong, in a few words. -/
def title : RuntimeFault → String
  | .undefinedVariable _ => "Undefined variable"
  | .typeMismatch .. => "Type mismatch"
  | .notANumber _ => "Cannot convert to number"
  | .invalidBooleanLiteral _ => "Invalid boolean literal"
  | .invalidCharacterExpression => "Invalid character expression"
  | .expectedText .. => "Expected character value"
  | .invalidBooleanComparison _ => "Invalid operator for boolean comparison"
  | .divisionByZero _ => "Division by zero"
  | .insufficientInput .. => "Insufficient input"
  | .invalidInputFormat .. => "Invalid input format"
  | .invalidBooleanInput _ => "Invalid boolean input"
  | .nonNumericCounter .. => "Non-numeric loop variable"
  | .io _ => "Input/output failure"

/-- What happened, in a sentence. -/
def message : RuntimeFault → String
  | .undefinedVariable name => "variable `" ++ name ++ "` is not declared"
  | .typeMismatch outer outerType inner innerType =>
      "cannot assign `" ++ inner ++ "` (" ++ innerType.word ++ ") to `" ++ outer ++ "` (" ++
        outerType.word ++ ")"
  | .notANumber value => "cannot convert `" ++ value ++ "` to a number"
  | .invalidBooleanLiteral value =>
      "`" ++ value ++ "` is not a boolean literal, expected \"OO\" or \"DILI\""
  | .invalidCharacterExpression =>
      "a LETRA value must be a character literal or a LETRA variable"
  | .expectedText name found =>
      "`" ++ name ++ "` holds a " ++ found ++ " value, expected text"
  | .invalidBooleanComparison op =>
      "operator `" ++ op.symbol ++ "` cannot compare two booleans, only `==` and `<>` can"
  | .divisionByZero op => "division by zero in `" ++ op.symbol ++ "`"
  | .insufficientInput expected got =>
      "expected " ++ toString expected ++ " comma separated value(s), got " ++ toString got
  | .invalidInputFormat name type value =>
      "`" ++ value ++ "` is not a valid " ++ type.word ++ " value for `" ++ name ++ "`"
  | .invalidBooleanInput value => "`" ++ value ++ "` is not a boolean, expected OO or DILI"
  | .nonNumericCounter name found =>
      "loop variable `" ++ name ++ "` holds a " ++ found ++ " value, expected a number"
  | .io kind => "input/output failed: " ++ kind.message

end RuntimeFault

/-- What is worth a remark but does not stop the program. -/
inductive Warning where
  /-- a variable is declared a second time -/
  | redeclaration (name : String) (previous current : DataType) (span : Span)
  /-- there are tokens behind the end of the program -/
  | unreachableCode (span : Span)
  deriving DecidableEq

end BisayaLang
