/-
**Reading numbers.**

A number is read from a text that is nothing but the number: a sign, digits with an optional point,
an optional exponent; or a word for infinity or for what is not a number, in letters of either case.
The value is the number nearest to the decimal.  An integer is a sign and digits, and has to fit
into 64 bits.

Main definitions:

* `BisayaLang.Number.readFloat?` — a number;
* `BisayaLang.Number.readInt?` — an integer of 64 bits.
-/

import BisayaLang.Number.Shortest
import BisayaLang.Text.Numeral

set_option relaxedAutoImplicit false
set_option autoImplicit false

namespace BisayaLang.Number

open BisayaLang.Text

/-- The value of a digit. -/
def digitValue (c : Char) : Nat := c.toNat - '0'.toNat

/-- The natural number that digits spell. -/
def ofDigits (cs : List Char) : Nat := cs.foldl (fun n c => n * 10 + digitValue c) 0

/-- Takes off a leading sign; true means that it was a minus. -/
def takeSign : List Char → Bool × List Char
  | '-' :: cs => (true, cs)
  | '+' :: cs => (false, cs)
  | cs => (false, cs)

/-- Reads an exponent to the end of the text: nothing at all, or its mark, a sign and digits. -/
def readExponent? : List Char → Option Int
  | [] => some 0
  | c :: cs =>
      if c = 'e' ∨ c = 'E' then
        let (negative, digits) := takeSign cs
        if digits ≠ [] ∧ digits.all isDigit then some (signed negative (ofDigits digits)) else none
      else none

/-- The digits behind a point, and what follows; without a point there are none. -/
def takeFraction : List Char → List Char × List Char
  | '.' :: cs => (cs.takeWhile isDigit, cs.dropWhile isDigit)
  | cs => ([], cs)

/-- Reads a decimal without a sign. -/
def readDecimal? (cs : List Char) : Option Decimal :=
  let whole := cs.takeWhile isDigit
  let (fraction, rest) := takeFraction (cs.dropWhile isDigit)
  if whole = [] ∧ fraction = [] then none
  else
    (readExponent? rest).map fun e => ⟨ofDigits (whole ++ fraction), e - (fraction.length : Int)⟩

/-- Reads a word for a number without digits. -/
def readWord? (negative : Bool) (cs : List Char) : Option Float :=
  let word := String.ofList (cs.map Char.toLower)
  if word = "inf" ∨ word = "infinity" then some (infinity negative)
  else if word = "nan" then some nan
  else none

/-- Reads a number. -/
def readFloat? (cs : List Char) : Option Float :=
  let (negative, body) := takeSign cs
  match readDecimal? body with
  | some d => some (ofMagnitude negative d.magnitude)
  | none => readWord? negative body

/-- Reads an integer of 64 bits. -/
def readInt? (cs : List Char) : Option Int :=
  let (negative, digits) := takeSign cs
  if digits ≠ [] ∧ digits.all isDigit then
    let n := signed negative (ofDigits digits)
    if leastInt ≤ n ∧ n ≤ greatestInt then some n else none
  else none

end BisayaLang.Number
