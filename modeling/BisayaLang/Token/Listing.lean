/-
**Listings of tokens.**

A listing names each token by a label and shows the text of those tokens that carry one in quotes.

Main definitions:

* `BisayaLang.Token.label` — the label of a token;
* `BisayaLang.Token.fixed` — the tokens of one spelling;
* `BisayaLang.Token.ofLabel?` — the token of one spelling with a given label;
* `BisayaLang.Token.listing` — a token in a listing.
-/

import BisayaLang.Text.Quoted
import BisayaLang.Token.Basic

set_option relaxedAutoImplicit false
set_option autoImplicit false

namespace BisayaLang

/-- The label of a framing word. -/
def Keyword.label : Keyword → String
  | .sugod => "Sugod"
  | .katapusan => "Katapusan"
  | .mugna => "Mugna"
  | .ipakita => "Ipakita"
  | .dawat => "Dawat"
  | .kung => "Kung"
  | .wala => "Wala"
  | .pundok => "Pundok"
  | .alang => "Alang"
  | .sa => "Sa"

/-- The label of a data type. -/
def DataType.label : DataType → String
  | .numero => "Numero"
  | .tipik => "Tipik"
  | .tinuod => "Tinuod"
  | .letra => "Letra"

/-- The label of a binary operator. -/
def BinaryOp.label : BinaryOp → String
  | .arithmetic .add => "Plus"
  | .arithmetic .sub => "Minus"
  | .arithmetic .mul => "Mult"
  | .arithmetic .div => "Div"
  | .arithmetic .mod => "Mod"
  | .comparison .eq => "Equal"
  | .comparison .ne => "NotEqual"
  | .comparison .lt => "LessThan"
  | .comparison .le => "LessThanOrEqual"
  | .comparison .gt => "GreaterThan"
  | .comparison .ge => "GreaterThanOrEqual"
  | .connective .ug => "Ug"
  | .connective .o => "O"

/-- The label of a unary operator. -/
def UnaryOp.label : UnaryOp → String
  | .minus => "Minus"
  | .dili => "Dili"

/-- The label of punctuation. -/
def Mark.label : Mark → String
  | .assign => "Assign"
  | .colonAssign => "ColonAssign"
  | .ampersand => "Ampersand"
  | .dollar => "Dollar"
  | .hash => "Hash"
  | .dot => "Dot"
  | .comma => "Comma"
  | .colon => "Colon"
  | .lparen => "LParen"
  | .rparen => "RParen"
  | .lbrace => "LBrace"
  | .rbrace => "RBrace"
  | .lbracket => "LSBracket"
  | .rbracket => "RSBracket"

/-- The label of a loop step. -/
def Step.label : Step → String
  | .increment => "Increment"
  | .decrement => "Decrement"

namespace Token

/-- The label of a token. -/
def label : Token → String
  | .name _ => "Ident"
  | .integer _ => "Int"
  | .decimal _ => "Decimal"
  | .text _ => "Char"
  | .oo => "Oo"
  | .dili => "Dili"
  | .word w => w.label
  | .type t => t.label
  | .op o => o.label
  | .step s => s.label
  | .mark m => m.label
  | .eof => "Eof"

/-- The text that a token carries besides its label. -/
def content? : Token → Option String
  | .name s | .integer s | .decimal s | .text s => some s
  | _ => none

/-- All framing words. -/
def keywords : List Keyword :=
  [.sugod, .katapusan, .mugna, .ipakita, .dawat, .kung, .wala, .pundok, .alang, .sa]

/-- All data types. -/
def dataTypes : List DataType := [.numero, .tipik, .tinuod, .letra]

/-- All binary operators. -/
def operators : List BinaryOp :=
  [.arithmetic .add, .arithmetic .sub, .arithmetic .mul, .arithmetic .div, .arithmetic .mod,
    .comparison .eq, .comparison .ne, .comparison .lt, .comparison .le, .comparison .gt,
    .comparison .ge, .connective .ug, .connective .o]

/-- All punctuation. -/
def marks : List Mark :=
  [.assign, .colonAssign, .ampersand, .dollar, .hash, .dot, .comma, .colon, .lparen, .rparen,
    .lbrace, .rbrace, .lbracket, .rbracket]

/-- All tokens of one spelling. -/
def fixed : List Token :=
  [.oo, .dili, .eof, .step .increment, .step .decrement] ++ keywords.map Token.word ++
    dataTypes.map Token.type ++ operators.map Token.op ++ marks.map Token.mark

/-- The token of one spelling that has a label. -/
def ofLabel? (label : String) : Option Token := fixed.find? fun t => t.label == label

/-- The token with a label and a text of its own. -/
def ofContent? (label content : String) : Option Token :=
  [Token.name content, .integer content, .decimal content, .text content].find?
    fun t => t.label == label

/-- A token as a listing shows it: its label, and its text in quotes. -/
def listing (t : Token) : String :=
  match t.content? with
  | none => t.label
  | some s => t.label ++ "(" ++ Text.quoted s ++ ")"

end Token

end BisayaLang
