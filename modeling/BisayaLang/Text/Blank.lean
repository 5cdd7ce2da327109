/-
**Blanks.**

Fields of input and texts that are read as numbers are trimmed of blanks: the characters with the
Unicode property White_Space.

Main definitions:

* `BisayaLang.Text.blank` — the ranges of the property;
* `BisayaLang.Text.isBlank` — the character is a blank;
* `BisayaLang.Text.trim` — a text without the blanks at its two ends.
-/

import BisayaLang.Text.Ranges

set_option relaxedAutoImplicit false
set_option autoImplicit false

namespace BisayaLang.Text

/-- The characters with the property White_Space. -/
def blank : Ranges := [
  (0x9, 0xD), (0x20, 0x20), (0x85, 0x85), (0xA0, 0xA0), (0x1680, 0x1680), (0x2000, 0x200A),
  (0x2028, 0x2029), (0x202F, 0x202F), (0x205F, 0x205F), (0x3000, 0x3000)]

/-- The character is a blank. -/
def isBlank (c : Char) : Bool := blank.covers c

/-- The text without its trailing characters of a class. -/
def dropEndWhile (p : Char → Bool) (cs : List Char) : List Char :=
  (cs.reverse.dropWhile p).reverse

/-- The text without the blanks at its two ends. -/
def trim (cs : List Char) : List Char := dropEndWhile isBlank (cs.dropWhile isBlank)

example : blank.ordered = true := by decide +kernel

example : trim [' ', 'a', ' ', 'b', '\t'] = ['a', ' ', 'b'] := by decide +kernel

end BisayaLang.Text
