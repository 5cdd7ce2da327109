/-
**Quoted text.**

A listing of tokens or of a program's tree shows text between double quotes, in a form that can be
read on any terminal: characters that do not show, or that lean on the one before, are written by
their code point.

Main definitions:

* `BisayaLang.Text.escape` — one character as it stands between the quotes;
* `BisayaLang.Text.quoted` — a text with its quotes.
-/

import BisayaLang.Text.Extender
import BisayaLang.Text.Printable

set_option relaxedAutoImplicit false
set_option autoImplicit false

namespace BisayaLang.Text

/-- The code point of a character in hexadecimal digits, in braces after a backslash and a `u`. -/
def escapeCode (c : Char) : String :=
  "\\u\x7b" ++ String.ofList (Nat.toDigits 16 c.toNat) ++ "\x7d"

/-- One character as it stands between double quotes. -/
def escape (c : Char) : String :=
  if c = '\x00' then "\\0"
  else if c = '\t' then "\\t"
  else if c = '\r' then "\\r"
  else if c = '\n' then "\\n"
  else if c = '"' then "\\\""
  else if c = '\\' then "\\\\"
  else if isExtender c || !isPrintable c then escapeCode c
  else c.toString

/-- A text between double quotes. -/
def quoted (s : String) : String :=
  "\"" ++ String.join (s.toList.map escape) ++ "\""

end BisayaLang.Text
