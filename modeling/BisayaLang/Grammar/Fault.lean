/-
**Faults of the grammar.**

Main definitions:

* `BisayaLang.SyntaxFault`, `BisayaLang.SyntaxError` — why tokens are no program, and where;
* `BisayaLang.Token.description` — a token as a message names it;
* `BisayaLang.SyntaxFault.title`, `BisayaLang.SyntaxFault.lines` — the words of a message.
-/

import BisayaLang.Token.Message

set_option relaxedAutoImplicit false
set_option autoImplicit false

namespace BisayaLang

/-- Why a text is no program. -/
inductive SyntaxFault where
  /-- the program does not start with `SUGOD` -/
  | expectedSugod
  /-- the program ends without `KATAPUSAN` -/
  | expectedKatapusan
  | expectedName (found : Token)
  | expectedType (found : Token)
  | expectedStep (found : Token)
  | expectedValue (found : Token)
  /-- there is no expression where one is needed -/
  | emptyExpression
  /-- a bracket is not closed, or closed by one of the other shape -/
  | mismatchedBrackets
  /-- `SUGOD` or `KATAPUSAN` within the program -/
  | misplacedMarker (marker : Token)
  | unexpectedEnd (expected : List String)
  | unexpectedToken (found : Token) (expected : List String)
  /-- the text is not even a sequence of tokens -/
  | lexical (fault : LexFault)
  deriving DecidableEq

/-- A fault and its place. -/
structure SyntaxError where
  fault : SyntaxFault
  span : Span
  deriving DecidableEq

/-- An error of the text as an error of the program. -/
def SyntaxError.ofLexError (e : LexError) : SyntaxError := ⟨.lexical e.fault, e.span⟩

/-- A token as a message names it. -/
def Token.description : Token → String
  | .integer _ | .decimal _ => "a Number"
  | .text _ => "a Text literal"
  | .name _ => "an Identifier"
  | .eof => "the end of file"
  | t => if t.isReserved then "the keyword `" ++ t.literal ++ "`" else "`" ++ t.literal ++ "`"

namespace SyntaxFault

/-- What is wrong, in a few words. -/
def title : SyntaxFault → String
  | .expectedSugod => "Expected `SUGOD`"
  | .expectedKatapusan => "Expected `KATAPUSAN`"
  | .expectedName _ => "Expected identifier"
  | .expectedType _ => "Expected type"
  | .expectedStep _ => "Expected loop step"
  | .expectedValue _ => "Expected value"
  | .emptyExpression => "Empty expression"
  | .mismatchedBrackets => "Mismatched parentheses"
  | .misplacedMarker _ => "Misplaced program marker"
  | .unexpectedEnd _ => "Unexpected end of file"
  | .unexpectedToken .. => "Not expected this"
  | .lexical f => f.title

/-- One line for each thing that could have stood there. -/
def bullets (expected : List String) : List String := expected.map fun s => "- " ++ s

/-- What was found and what was expected, line by line. -/
def lines : SyntaxFault → List String
  | .expectedSugod => ["Every program starts with `SUGOD`"]
  | .expectedKatapusan => ["Every program ends with `KATAPUSAN`"]
  | .expectedName found => ["Found " ++ found.description]
  | .expectedType found =>
      ("Found " ++ found.description ++ ", expected one of: ") ::
        bullets ["NUMERO", "TIPIK", "TINUOD", "LETRA"]
  | .expectedStep found => ["Found " ++ found.description ++ ", expected `++` or `--`"]
  | .expectedValue found =>
      ["Found " ++ found.description ++ ", expected a literal, an identifier or `(`"]
  | .emptyExpression => []
  | .mismatchedBrackets => []
  | .misplacedMarker marker =>
      ["`" ++ marker.literal ++ "` may only appear once, around the whole program"]
  | .unexpectedEnd expected => "Expected one of: " :: bullets expected
  | .unexpectedToken found expected =>
      ("Found " ++ found.description ++ ", expected one of: ") :: bullets expected
  | .lexical f => f.lines

end SyntaxFault

end BisayaLang
