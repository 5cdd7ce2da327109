/-
**How numbers are written.**

The digits of a number are those of its shortest decimal.  What is left to decide is a *layout*:
between which powers of ten the number is written out place by place, and whether a whole number
still shows a point.

Main definitions:

* `BisayaLang.Number.Layout` — the decisions;
* `BisayaLang.Number.Layout.tipik`, `BisayaLang.Number.Layout.plain` — the two layouts in use;
* `BisayaLang.Number.Layout.write` — a number as text;
* `BisayaLang.Number.display` — a number as a computed value shows it.
-/

import BisayaLang.Number.Shortest

set_option relaxedAutoImplicit false
set_option autoImplicit false

namespace BisayaLang.Number

/-- Decisions on how a number is written. -/
structure Layout where
  /-- numbers whose first digit stands at this place are written out place by place -/
  spelledOut : Int → Bool
  /-- a whole number that is written out ends in a point and a zero -/
  keepsPoint : Bool

namespace Layout

/-- A `TIPIK` always shows a point or an exponent, and an exponent from ten to the sixteenth on and
below a ten-thousandth. -/
def tipik : Layout := ⟨fun place => decide (-3 ≤ place) && decide (place ≤ 16), true⟩

/-- A computed number never shows an exponent, and a point only before a fraction. -/
def plain : Layout := ⟨fun _ => true, false⟩

/-- So many zeros. -/
def zeros (n : Nat) : String := String.ofList (List.replicate n '0')

/-- Digits with the point after the place `place`. -/
def spell (layout : Layout) (digits : String) (place : Int) : String :=
  let count : Int := digits.length
  if place ≤ 0 then "0." ++ zeros (-place).toNat ++ digits
  else if count ≤ place then
    digits ++ zeros (place - count).toNat ++ (if layout.keepsPoint then ".0" else "")
  else
    String.ofList (digits.toList.take place.toNat) ++ "." ++
      String.ofList (digits.toList.drop place.toNat)

/-- One digit, the others behind a point, and the power of ten. -/
def scientific (digits : String) (place : Int) : String :=
  let mark := "e" ++ toString (place - 1)
  match digits.toList with
  | [] => mark
  | [d] => String.ofList [d] ++ mark
  | d :: rest => String.ofList (d :: '.' :: rest) ++ mark

/-- A positive number as text. -/
def writePositive (layout : Layout) (mantissa : Nat) (exponent : Int) : String :=
  let d := shortest mantissa exponent
  let digits := String.ofList (Nat.toDigits 10 d.digits)
  let place := (digits.length : Int) + d.exponent
  if layout.spelledOut place then layout.spell digits place else scientific digits place

/-- A number as text. -/
def write (layout : Layout) (x : Float) : String :=
  match Parts.ofFloat x with
  | .nan => "NaN"
  | .infinite negative => if negative then "-inf" else "inf"
  | .finite negative mantissa exponent =>
      let body :=
        if mantissa = 0 then (if layout.keepsPoint then "0.0" else "0")
        else layout.writePositive mantissa exponent
      if negative then "-" ++ body else body

end Layout

/-- A computed number as text: a whole number of at most fifteen digits as an integer, any other in
the plain layout. -/
def display (x : Float) : String :=
  match Parts.ofFloat x with
  | .finite negative mantissa exponent =>
      if isWhole mantissa exponent && decide (wholeMagnitude mantissa exponent < tenTo 15) then
        toString (signed negative (wholeMagnitude mantissa exponent))
      else Layout.plain.write x
  | _ => Layout.plain.write x

end BisayaLang.Number
