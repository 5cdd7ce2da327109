/-
**Lines of input.**

An input statement reads one line.  Its fields stand between commas, and blanks around a field do not
count.  A field is read as a value of the type of the variable that takes it.

Main definitions:

* `BisayaLang.Input.takeLine` — the first line of the bytes that are left;
* `BisayaLang.Input.fields` — the fields of a line;
* `BisayaLang.Input.convert` — the value of a field.
-/

import BisayaLang.Execution.Failure
import BisayaLang.Number.Reading
import BisayaLang.Text.Blank
import BisayaLang.Tree.Basic
import BisayaLang.Value.Basic

set_option relaxedAutoImplicit false
set_option autoImplicit false

namespace BisayaLang.Input

/-- The first line, with its end if it has one, and the bytes after it. -/
def takeLine : List UInt8 → List UInt8 × List UInt8
  | [] => ([], [])
  | b :: bytes =>
      if b = 10 then ([b], bytes)
      else
        match takeLine bytes with
        | (line, rest) => (b :: line, rest)

/-- Nothing is lost: the line and the rest make up the input. -/
theorem takeLine_append (bytes : List UInt8) :
    (takeLine bytes).1 ++ (takeLine bytes).2 = bytes := by
  induction bytes with
  | nil => rfl
  | cons b bytes ih =>
      simp only [takeLine]
      split <;> simp [ih]

/-- A character that ends a line. -/
def isLineEnd (c : Char) : Bool := c = '\n' || c = '\r'

/-- The texts between commas. -/
def splitCommas : List Char → List (List Char)
  | [] => [[]]
  | c :: cs =>
      if c = ',' then [] :: splitCommas cs
      else
        match splitCommas cs with
        | field :: fields => (c :: field) :: fields
        | [] => [[c]]

/-- The fields of a line: without the characters that end it, cut at the commas, and trimmed.  An empty
line has one empty field. -/
def fields (line : List Char) : List (List Char) :=
  (splitCommas (Text.dropEndWhile isLineEnd line)).map Text.trim

/-- The field spells a word, in letters of either case. -/
def spells (word : String) (field : List Char) : Bool := field.map Char.toUpper == word.toList

/-- The value of a field for a variable of some type. -/
def convert (name : Name) (type : DataType) (field : List Char) : Except RuntimeError Value :=
  let invalid : RuntimeError :=
    ⟨.invalidInputFormat name.text type (String.ofList field), name.span⟩
  match type with
  | .numero =>
      match Number.readInt? field with
      | some n => .ok (.number (Number.ofInt n))
      | none => .error invalid
  | .tipik =>
      match Number.readFloat? field with
      | some x => .ok (.number x)
      | none => .error invalid
  | .tinuod =>
      if spells (truthWord true) field then .ok (.truth true)
      else if spells (truthWord false) field then .ok (.truth false)
      else .error ⟨.invalidBooleanInput (String.ofList field), name.span⟩
  | .letra => .ok (.text (String.ofList field))

end BisayaLang.Input
