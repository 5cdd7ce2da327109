/-
**Words for faults of the text.**

Main definitions:

* `BisayaLang.LexFault.title` — what is wrong, in a few words;
* `BisayaLang.LexFault.lines` — what to do about it, line by line.
-/

import BisayaLang.Token.Scanner

set_option relaxedAutoImplicit false
set_option autoImplicit false

namespace BisayaLang.LexFault

/-- What is wrong, in a few words. -/
def title : LexFault → String
  | .unrecognized _ => "Unexpected character"
  | .unterminatedString => "Unterminated string literal"
  | .unterminatedCharacter _ => "Unterminated character literal"
  | .malformedCharacter => "Malformed character literal"

/-- What to do about it, line by line. -/
def lines : LexFault → List String
  | .unrecognized c => ["`" ++ c.toString ++ "` is not part of the language"]
  | .unterminatedString => ["Add a closing `\"`"]
  | .unterminatedCharacter _ => ["Add a closing `'`"]
  | .malformedCharacter =>
      ["A character literal holds exactly one character, use `\"` for text"]

end BisayaLang.LexFault
