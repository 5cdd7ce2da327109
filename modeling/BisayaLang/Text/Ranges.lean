/-
**Classes of characters.**

A class of characters is given by the ranges of code points in it, in increasing order.

Main definitions:

* `BisayaLang.Text.Ranges` — a list of ranges, both ends included;
* `BisayaLang.Text.Ranges.covers` — the character lies in one of the ranges.
-/

set_option relaxedAutoImplicit false
set_option autoImplicit false

namespace BisayaLang.Text

/-- Ranges of code points, both ends included. -/
abbrev Ranges := List (Nat × Nat)

/-- The character lies in one of the ranges. -/
def Ranges.covers (ranges : Ranges) (c : Char) : Bool :=
  ranges.any fun r => r.1 ≤ c.toNat && c.toNat ≤ r.2

/-- Each range starts after the one before it and is not empty. -/
def Ranges.ordered : Ranges → Bool
  | [] => true
  | [r] => r.1 ≤ r.2
  | r :: s :: rest => r.1 ≤ r.2 && r.2 < s.1 && ordered (s :: rest)

end BisayaLang.Text
