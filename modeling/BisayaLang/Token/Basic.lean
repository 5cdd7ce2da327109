/-
**Tokens.**

A program text is a sequence of tokens with blanks and comments between them.  Four kinds of token
carry a text of their own: names, integers, decimals and quoted text.  All others have one spelling.

Main definitions:

* `BisayaLang.Keyword`, `BisayaLang.Mark`, `BisayaLang.Step` — groups of tokens of one spelling;
* `BisayaLang.Token` — a token;
* `BisayaLang.Token.literal` — its text, without quotes;
* `BisayaLang.Token.ofWord?` — the token that is spelled by a word, if it is no name;
* `BisayaLang.Spanned` — a token with its place in the source.
-/

import BisayaLang.Operator
import BisayaLang.Source.Span
import BisayaLang.Value.DataType

set_option relaxedAutoImplicit false
set_option autoImplicit false

namespace BisayaLang

/-- The words that frame programs, statements and blocks. -/
inductive Keyword where
  | sugod | katapusan | mugna | ipakita | dawat | kung | wala | pundok | alang | sa
  deriving DecidableEq, Inhabited

/-- Punctuation. -/
inductive Mark where
  | assign | colonAssign
  | ampersand | dollar | hash | dot | comma | colon
  | lparen | rparen | lbrace | rbrace | lbracket | rbracket
  deriving DecidableEq, Inhabited

/-- The two ways in which a loop steps. -/
inductive Step where
  | increment | decrement
  deriving DecidableEq, Inhabited

/-- The tokens of a program text. -/
inductive Token where
  /-- a letter or underscore, then letters, numerals and underscores -/
  | name (text : String)
  /-- digits -/
  | integer (digits : String)
  /-- digits, a point, digits -/
  | decimal (digits : String)
  /-- quoted text -/
  | text (content : String)
  /-- the truth value `OO` -/
  | oo
  /-- the truth value `DILI`, and the negation -/
  | dili
  /-- a framing word -/
  | word (w : Keyword)
  /-- a word for a type -/
  | type (t : DataType)
  /-- a binary operator; `-` is also the sign of an operand -/
  | op (o : BinaryOp)
  /-- `++` or `--` -/
  | step (s : Step)
  /-- punctuation -/
  | mark (m : Mark)
  /-- the end of the text -/
  | eof
  deriving DecidableEq, Inhabited

/-- The spelling of a framing word. -/
def Keyword.spelling : Keyword → String
  | .sugod => "SUGOD"
  | .katapusan => "KATAPUSAN"
  | .mugna => "MUGNA"
  | .ipakita => "IPAKITA"
  | .dawat => "DAWAT"
  | .kung => "KUNG"
  | .wala => "WALA"
  | .pundok => "PUNDOK"
  | .alang => "ALANG"
  | .sa => "SA"

/-- The spelling of punctuation. -/
def Mark.spelling : Mark → String
  | .assign => "="
  | .colonAssign => ":="
  | .ampersand => "&"
  | .dollar => "$"
  | .hash => "#"
  | .dot => "."
  | .comma => ","
  | .colon => ":"
  | .lparen => "("
  | .rparen => ")"
  | .lbrace => "\x7b"
  | .rbrace => "\x7d"
  | .lbracket => "["
  | .rbracket => "]"

/-- The spelling of a loop step. -/
def Step.spelling : Step → String
  | .increment => "++"
  | .decrement => "--"

namespace Token

/-- The text of a token: its own, without quotes, or its one spelling.  The end of the text counts as
a null character. -/
def literal : Token → String
  | .name s | .integer s | .decimal s | .text s => s
  | .oo => "OO"
  | .dili => "DILI"
  | .word w => w.spelling
  | .type t => t.word
  | .op o => o.symbol
  | .step s => s.spelling
  | .mark m => m.spelling
  | .eof => "\x00"

/-- The token that a word spells, if it is not free to be a name. -/
def ofWord? : String → Option Token
  | "SUGOD" => some (.word .sugod)
  | "KATAPUSAN" => some (.word .katapusan)
  | "MUGNA" => some (.word .mugna)
  | "IPAKITA" => some (.word .ipakita)
  | "DAWAT" => some (.word .dawat)
  | "KUNG" => some (.word .kung)
  | "WALA" => some (.word .wala)
  | "PUNDOK" => some (.word .pundok)
  | "ALANG" => some (.word .alang)
  | "SA" => some (.word .sa)
  | "NUMERO" => some (.type .numero)
  | "TIPIK" => some (.type .tipik)
  | "TINUOD" => some (.type .tinuod)
  | "LETRA" => some (.type .letra)
  | "OO" => some .oo
  | "DILI" => some .dili
  | "UG" => some (.op (.connective .ug))
  | "O" => some (.op (.connective .o))
  | _ => none

/-- The token of a word: a reserved one, or a name. -/
def ofWord (word : String) : Token := (ofWord? word).getD (.name word)

/-! ### Classes of tokens -/

/-- A token that ends a list of print items: a framing word or a word for a type. -/
def isReserved : Token → Bool
  | .word _ | .type _ => true
  | _ => false

/-- A token that is an arithmetic operator. -/
def isArithmetic : Token → Bool
  | .op (.arithmetic _) => true
  | _ => false

/-- A token that is a comparison. -/
def isComparison : Token → Bool
  | .op (.comparison _) => true
  | _ => false

/-- A token that is a binary operator. -/
def isBinary : Token → Bool
  | .op _ => true
  | _ => false

/-- A token that can begin an operand. -/
def startsOperand : Token → Bool
  | .name _ | .integer _ | .decimal _ | .text _ | .oo | .dili => true
  | .mark .lparen | .mark .lbracket => true
  | .op (.arithmetic .sub) => true
  | _ => false

/-- One of the two spellings of assignment. -/
def isAssign : Token → Bool
  | .mark .assign | .mark .colonAssign => true
  | _ => false

/-- A token that is a name. -/
def isName : Token → Bool
  | .name _ => true
  | _ => false

/-- How tightly the token binds as a binary operator, zero if it is none. -/
def binaryPrecedence : Token → Nat
  | .op o => o.precedence
  | _ => 0

/-- How tightly the token binds before an operand, zero if it cannot stand there. -/
def unaryPrecedence : Token → Nat
  | .op (.arithmetic .sub) => UnaryOp.minus.precedence
  | .dili => UnaryOp.dili.precedence
  | _ => 0

/-- The type that the token is a word for. -/
def dataType? : Token → Option DataType
  | .type t => some t
  | _ => none

/-- A reserved word is the text of its own token. -/
theorem literal_of_ofWord? {word : String} {t : Token} (h : ofWord? word = some t) :
    t.literal = word := by
  unfold ofWord? at h
  split at h <;> simp at h <;> subst h <;> rfl

end Token

/-- A token with its place in the source. -/
structure Spanned where
  span : Span
  token : Token
  deriving DecidableEq, Inhabited

end BisayaLang
