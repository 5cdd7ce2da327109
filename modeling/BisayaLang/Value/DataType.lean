/-
**Data types.**

A variable is declared with one of four types: whole numbers, numbers with a fraction, truth values
and text.

Main definitions:

* `BisayaLang.DataType` — the types;
* `BisayaLang.DataType.word` — the word that declares a variable of the type.
-/

set_option relaxedAutoImplicit false
set_option autoImplicit false

namespace BisayaLang

/-- The types of variables. -/
inductive DataType where
  /-- whole numbers -/
  | numero
  /-- numbers with a fraction -/
  | tipik
  /-- truth values -/
  | tinuod
  /-- text -/
  | letra
  deriving DecidableEq, Inhabited

/-- The word for a type. -/
def DataType.word : DataType → String
  | .numero => "NUMERO"
  | .tipik => "TIPIK"
  | .tinuod => "TINUOD"
  | .letra => "LETRA"

end BisayaLang
