/-
**Binary numbers taken apart and put together.**

The numbers of the language are binary floating point numbers of 64 bits.  A finite one is, up to
its sign, `mantissa * 2 ^ exponent` for two integers, which gives exact answers to the questions the
language asks about a number: its whole part, whether it has a fraction, the remainder of a
division.  In the other direction a fraction of two integers is rounded to the nearest number, and
a value half way between two goes to the one with the even mantissa.

Main definitions:

* `BisayaLang.Number.Parts` — a number taken apart;
* `BisayaLang.Number.ofRatio` — the number nearest to a fraction;
* `BisayaLang.Number.wholePart` — the integer next to a number in the direction of zero;
* `BisayaLang.Number.remainder` — what is left of a number after whole multiples of another.
-/

set_option relaxedAutoImplicit false
set_option autoImplicit false

namespace BisayaLang.Number

/-- Two to a power. -/
def twoTo (n : Nat) : Nat := Nat.pow 2 n

/-- The bit of the sign. -/
def signBit : Nat := twoTo 63

/-- The lowest bit of the exponent.  It also stands for the first bit of a mantissa, which is not
stored. -/
def exponentBit : Nat := twoTo 52

/-- The bits of infinity: an exponent of all ones, and no fraction. -/
def infiniteBits : Nat := 2047 * exponentBit

/-- A number taken apart: a finite one is `mantissa * 2 ^ exponent`, with its sign beside it. -/
inductive Parts where
  | nan
  | infinite (negative : Bool)
  | finite (negative : Bool) (mantissa : Nat) (exponent : Int)

/-- Splits the 64 bits into sign, exponent and fraction. -/
def Parts.ofFloat (x : Float) : Parts :=
  let bits := x.toBits.toNat
  let negative := decide (signBit ≤ bits)
  let biased : Nat := bits / exponentBit % 2048
  let fraction := bits % exponentBit
  if biased = 2047 then
    if fraction = 0 then .infinite negative else .nan
  else if biased = 0 then .finite negative fraction (-1074)
  else .finite negative (exponentBit + fraction) ((biased : Int) - 1075)

/-- The fraction `num * 2 ^ e / den` as numerator and denominator. -/
def scale (num den : Nat) (e : Int) : Nat × Nat :=
  match e with
  | .ofNat n => (num * twoTo n, den)
  | .negSucc n => (num, den * twoTo (n + 1))

/-- The integer nearest to `num / den`, the even one of two that are equally near. -/
def roundHalfEven (num den : Nat) : Nat :=
  let q := num / den
  let r := num % den
  if 2 * r < den then q
  else if den < 2 * r then q + 1
  else q + q % 2

/-- The exponent with which a positive fraction has a mantissa of 53 bits, or the least exponent
there is. -/
def exponentOf (num den : Nat) : Int :=
  let guess : Int := (num.log2 : Int) - (den.log2 : Int) - 52
  let (n, d) := scale num den (-guess)
  max (if n < exponentBit * d then guess - 1 else guess) (-1074)

/-- The 63 bits below the sign of the number nearest to `num / den`.  Fractions beyond the greatest
number become infinite. -/
def magnitudeBits (num den : Nat) : Nat :=
  if num = 0 then 0
  else
    let e := exponentOf num den
    let (n, d) := scale num den (-e)
    min ((e + 1074).toNat * exponentBit + roundHalfEven n d) infiniteBits

/-- The number with the given sign and the given 63 bits below it. -/
def ofMagnitude (negative : Bool) (bits : Nat) : Float :=
  Float.ofBits (UInt64.ofNat (if negative then signBit + bits else bits))

/-- The number nearest to `num / den`, with a sign. -/
def ofRatio (negative : Bool) (num den : Nat) : Float :=
  ofMagnitude negative (magnitudeBits num den)

/-- The number nearest to an integer. -/
def ofInt (n : Int) : Float := ofRatio (decide (n < 0)) n.natAbs 1

/-- The number that is not a number. -/
def nan : Float := ofMagnitude false (infiniteBits + twoTo 51)

/-- Positive or negative infinity. -/
def infinity (negative : Bool) : Float := ofMagnitude negative infiniteBits

/-- The integer with a given absolute value and sign. -/
def signed (negative : Bool) (n : Nat) : Int := if negative then -(n : Int) else n

/-- The whole part of a finite number without its sign. -/
def wholeMagnitude (mantissa : Nat) (exponent : Int) : Nat :=
  let (n, d) := scale mantissa 1 exponent
  n / d

/-- A finite number has no fraction. -/
def isWhole (mantissa : Nat) (exponent : Int) : Bool :=
  let (n, d) := scale mantissa 1 exponent
  n % d == 0

/-- The greatest integer of 64 bits. -/
def greatestInt : Int := (twoTo 63 : Int) - 1

/-- The least integer of 64 bits. -/
def leastInt : Int := -(twoTo 63 : Int)

/-- The whole part of a number as an integer of 64 bits: what is out of range goes to the nearest
integer in range, and what is not a number to zero. -/
def wholePart (x : Float) : Int :=
  match Parts.ofFloat x with
  | .nan => 0
  | .infinite negative => if negative then leastInt else greatestInt
  | .finite negative mantissa exponent =>
      max leastInt (min greatestInt (signed negative (wholeMagnitude mantissa exponent)))

/-- What is left of `x` after the whole multiples of `y` that fit into it.  It has the sign of `x`
and is exact. -/
def remainder (x y : Float) : Float :=
  match Parts.ofFloat x, Parts.ofFloat y with
  | .finite negative m₁ e₁, .finite _ m₂ e₂ =>
      if m₂ = 0 then nan
      else
        let e := min e₁ e₂
        let a := m₁ * twoTo (e₁ - e).toNat
        let b := m₂ * twoTo (e₂ - e).toNat
        let (n, d) := scale (a % b) 1 e
        ofRatio negative n d
  | .finite .., .infinite _ => x
  | _, _ => nan

/-- The order of two numbers; there is none if one of them is not a number. -/
def order? (x y : Float) : Option Ordering :=
  match decide (x ≤ y), decide (y ≤ x) with
  | true, true => some .eq
  | true, false => some .lt
  | false, true => some .gt
  | false, false => none

/-- One for true and zero for false. -/
def ofBool (b : Bool) : Float := if b then 1.0 else 0.0

end BisayaLang.Number
