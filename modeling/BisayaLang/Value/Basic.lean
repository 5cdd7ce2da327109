/-
**Values.**

A value is a number, a truth value or a text.

Main definitions:

* `BisayaLang.Value` — values;
* `BisayaLang.Value.display` — a value as text;
* `BisayaLang.Value.displayAs` — the value of a variable as text, which depends on its type;
* `BisayaLang.Value.truthy` — whether a value counts as true;
* `BisayaLang.Value.toNumber?` — the number that a value stands for;
* `BisayaLang.Comparison.holds` — what a comparison says of an order.
-/

import BisayaLang.Number.Layout
import BisayaLang.Number.Reading
import BisayaLang.Operator
import BisayaLang.Text.Blank
import BisayaLang.Value.DataType

set_option relaxedAutoImplicit false
set_option autoImplicit false

namespace BisayaLang

/-- Values. -/
inductive Value where
  | number (x : Float)
  | truth (b : Bool)
  | text (s : String)
  deriving Inhabited

/-- The word for a truth value. -/
def truthWord (b : Bool) : String := if b then "OO" else "DILI"

/-- The value of a variable that is declared without one. -/
def DataType.defaultValue : DataType → Value
  | .numero | .tipik => .number 0.0
  | .tinuod => .truth false
  | .letra => .text ""

namespace Value

/-- A word for the kind of a value. -/
def kind : Value → String
  | .number _ => "number"
  | .truth _ => "boolean"
  | .text _ => "text"

/-- A value as text. -/
def display : Value → String
  | .number x => Number.display x
  | .truth b => truthWord b
  | .text s => s

/-- The value of a variable as text: a `NUMERO` without its fraction, a `TIPIK` always with a point or
an exponent. -/
def displayAs : DataType → Value → String
  | .numero, .number x => toString (Number.wholePart x)
  | .tipik, .number x => Number.Layout.tipik.write x
  | _, v => v.display

/-- Zero, `DILI` and the empty text count as false. -/
def truthy : Value → Bool
  | .number x => x != 0.0
  | .truth b => b
  | .text s => !s.isEmpty

/-- The number that a text spells, blanks around it apart. -/
def ofText? (s : String) : Option Float := Number.readFloat? (Text.trim s.toList)

/-- The number that a value stands for.  Not every text stands for one. -/
def toNumber? : Value → Option Float
  | .number x => some x
  | .truth b => some (Number.ofBool b)
  | .text s => ofText? s

/-- The order of texts: by the first character in which they differ. -/
def textOrder (a b : String) : Ordering :=
  if a < b then .lt else if a = b then .eq else .gt

/-- The order of two values that are not both truth values: as numbers if both stand for one, and else
as the texts that they show.  A value that is not a number has no place in the order. -/
def order? (a b : Value) : Option Ordering :=
  match a.toNumber?, b.toNumber? with
  | some x, some y => Number.order? x y
  | _, _ => some (textOrder a.display b.display)

/-- The value fits the type. -/
def fits : DataType → Value → Bool
  | .numero, .number _ | .tipik, .number _ | .tinuod, .truth _ | .letra, .text _ => true
  | _, _ => false

theorem fits_defaultValue (t : DataType) : fits t t.defaultValue = true := by
  cases t <;> rfl

end Value

/-- What a comparison says of two values in the given order.  Without an order only `<>` holds. -/
def Comparison.holds : Comparison → Option Ordering → Bool
  | .ne, none => true
  | _, none => false
  | .eq, some o => o == .eq
  | .ne, some o => o != .eq
  | .lt, some o => o == .lt
  | .le, some o => o != .gt
  | .gt, some o => o == .gt
  | .ge, some o => o != .lt

end BisayaLang
