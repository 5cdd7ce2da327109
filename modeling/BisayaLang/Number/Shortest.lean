/-
**The shortest decimal that reads back.**

A number is written with the fewest decimal digits from which it can be read again.  For one digit,
two digits and so on, the two neighbours of the number on the decimal grid of that many digits are
tried; the first grid with a neighbour that reads back is taken, and of two such neighbours the
nearer one.

Main definitions:

* `BisayaLang.Number.Decimal` — digits and a power of ten;
* `BisayaLang.Number.Decimal.ratio` — its value as a fraction;
* `BisayaLang.Number.shortest` — the shortest decimal of a positive number.
-/

import BisayaLang.Number.Binary

set_option relaxedAutoImplicit false
set_option autoImplicit false

namespace BisayaLang.Number

/-- Ten to a power. -/
def tenTo (n : Nat) : Nat := Nat.pow 10 n

/-- The decimal number `digits * 10 ^ exponent`. -/
structure Decimal where
  digits : Nat
  exponent : Int
  deriving DecidableEq

/-- The number of decimal digits of a natural number. -/
def digitCount (n : Nat) : Nat := (Nat.toDigits 10 n).length

namespace Decimal

/-- The value as numerator and denominator. -/
def ratio (d : Decimal) : Nat × Nat :=
  match d.exponent with
  | .ofNat n => (d.digits * tenTo n, 1)
  | .negSucc n => (d.digits, tenTo (n + 1))

/-- The magnitude bits of the nearest number.  A decimal far outside the range of the numbers is
decided by the place of its first digit alone. -/
def magnitude (d : Decimal) : Nat :=
  if d.digits = 0 then 0
  else
    let place := (digitCount d.digits : Int) + d.exponent
    if 400 < place then infiniteBits
    else if place < -400 then 0
    else
      let (n, den) := d.ratio
      magnitudeBits n den

/-- Moves trailing zeros of at most `fuel` places into the exponent. -/
def stripF : (fuel : Nat) → Decimal → Decimal
  | 0, d => d
  | fuel + 1, d =>
      if d.digits ≠ 0 ∧ d.digits % 10 = 0 then stripF fuel ⟨d.digits / 10, d.exponent + 1⟩ else d

/-- The same value without trailing zeros in the digits. -/
def strip (d : Decimal) : Decimal := stripF (digitCount d.digits) d

end Decimal

/-- The fraction is less than ten to the given power. -/
def isBelow (num den : Nat) (place : Int) : Bool :=
  match place with
  | .ofNat k => num < den * tenTo k
  | .negSucc k => num * tenTo (k + 1) < den

/-- The place of the first digit of a positive fraction: the fraction is less than ten to this power,
and not less than the tenth part of that.  The number of bits leaves only a few places to try, since
ten is about two to the power of `100000 / 30103`. -/
def leadingPlace (num den : Nat) : Int :=
  let guess := ((num.log2 : Int) - (den.log2 : Int)) * 30103 / 100000 - 1
  (([guess, guess + 1, guess + 2, guess + 3].find? (isBelow num den)).getD (guess + 4))

/-- The neighbours of `num / den` on the grid of multiples of `10 ^ e`, the nearer one first; of two
that are equally near, the upper one. -/
def neighbours (num den : Nat) (e : Int) : List Decimal :=
  let (n, d) := match e with
    | .ofNat k => (num, den * tenTo k)
    | .negSucc k => (num * tenTo (k + 1), den)
  let lower : Decimal := ⟨n / d, e⟩
  let upper : Decimal := ⟨n / d + 1, e⟩
  if 2 * (n % d) < d then [lower, upper] else [upper, lower]

/-- Searches the grids of `count` digits and more, `grids` of them. -/
def searchF (bits num den : Nat) (place : Int) : (grids : Nat) → (count : Nat) → Option Decimal
  | 0, _ => none
  | grids + 1, count =>
      match (neighbours num den (place - count)).find? (fun d => d.magnitude == bits) with
      | some d => some d
      | none => searchF bits num den place grids (count + 1)

/-- The exact value of `mantissa * 2 ^ exponent` as a decimal. -/
def exactDecimal (mantissa : Nat) (exponent : Int) : Decimal :=
  match exponent with
  | .ofNat n => ⟨mantissa * twoTo n, 0⟩
  | .negSucc n => ⟨mantissa * Nat.pow 5 (n + 1), -((n + 1 : Nat) : Int)⟩

/-- The shortest decimal that reads back as `mantissa * 2 ^ exponent`.  Seventeen digits always
suffice; the exact value stands behind them. -/
def shortest (mantissa : Nat) (exponent : Int) : Decimal :=
  let (num, den) := scale mantissa 1 exponent
  match searchF (magnitudeBits num den) num den (leadingPlace num den) 17 1 with
  | some d => d.strip
  | none => (exactDecimal mantissa exponent).strip

end BisayaLang.Number
