/-
**From text to tokens.**

Tokens are read from left to right.  Between them stand blanks and comments; a comment is `--` up to
the end of the line.  Directly behind a name, though, `--` is the step of a loop.  Typographic quotes
are read as the plain ones.

The text at the head of the input decides which token comes next and how many characters it takes;
`Token.recognise` says so without regard to offsets.  A `Scanner` keeps the place in the source, so
that each token gets the span of the characters it took.

Main definitions:

* `BisayaLang.LexFault`, `BisayaLang.LexError` — why the text at some place is no token;
* `BisayaLang.Token.recognise` — the token at the head of a text;
* `BisayaLang.Scanner.next` — one step of reading, which goes on after an error;
* `BisayaLang.Scanner.scan` — all tokens up to the end of the text or the first error;
* `BisayaLang.tokenize` — the tokens of a text.

Main results:

* `BisayaLang.Scanner.next_length_lt` — every token but the end takes characters, so that reading
  comes to an end.
-/

import BisayaLang.Text.Alphabetic
import BisayaLang.Text.Numeral
import BisayaLang.Token.Basic

set_option relaxedAutoImplicit false
set_option autoImplicit false

namespace BisayaLang

open BisayaLang.Text

/-- Why the text at some place is no token. -/
inductive LexFault where
  /-- a character that starts no token -/
  | unrecognized (found : Char)
  /-- a double quote without a second one -/
  | unterminatedString
  /-- a single quote with at most one character behind it, which is given -/
  | unterminatedCharacter (found : Option Char)
  /-- a single quote with two characters behind it, the second of which is no quote -/
  | malformedCharacter
  deriving DecidableEq

/-- A fault and its place. -/
structure LexError where
  fault : LexFault
  span : Span
  deriving DecidableEq

/-! ### Characters -/

/-- Reads a typographic quote as the plain one. -/
def foldQuote (c : Char) : Char :=
  if c = '\u2018' ∨ c = '\u2019' then '\''
  else if c = '\u201c' ∨ c = '\u201d' then '"'
  else c

/-- The characters that only separate tokens. -/
def isSpace (c : Char) : Bool :=
  c = '\n' || c = ' ' || c = '\t' || c = '\x0c' || c = '\r'

/-- A character that can start a name. -/
def startsName (c : Char) : Bool := isAlphabetic c || c = '_'

/-- A character that can continue a name. -/
def continuesName (c : Char) : Bool := isAlphabetic c || isNumeral c || c = '_'

/-! ### One token -/

/-- What stands at the head of a text: a token of so many characters, or a fault that concerns the
first `reported` characters and leaves the text behind the first `consumed` ones unread. -/
inductive Lexeme where
  | token (t : Token) (length : Nat)
  | fault (f : LexFault) (reported consumed : Nat)

namespace Token

/-- The token of one or two special characters, and how many of the two belong to it.  `glued` says
that a name ends right before. -/
def symbol? (glued : Bool) : Char → Option Char → Option (Token × Nat)
  | '-', some '-' => if glued then some (.step .decrement, 2) else none
  | '-', _ => some (.op (.arithmetic .sub), 1)
  | '+', some '+' => some (.step .increment, 2)
  | '+', _ => some (.op (.arithmetic .add), 1)
  | '*', _ => some (.op (.arithmetic .mul), 1)
  | '/', _ => some (.op (.arithmetic .div), 1)
  | '%', _ => some (.op (.arithmetic .mod), 1)
  | '<', some '=' => some (.op (.comparison .le), 2)
  | '<', some '>' => some (.op (.comparison .ne), 2)
  | '<', _ => some (.op (.comparison .lt), 1)
  | '>', some '=' => some (.op (.comparison .ge), 2)
  | '>', _ => some (.op (.comparison .gt), 1)
  | '=', some '=' => some (.op (.comparison .eq), 2)
  | '=', _ => some (.mark .assign, 1)
  | ':', some '=' => some (.mark .colonAssign, 2)
  | ':', _ => some (.mark .colon, 1)
  | '&', _ => some (.mark .ampersand, 1)
  | '$', _ => some (.mark .dollar, 1)
  | '#', _ => some (.mark .hash, 1)
  | '.', _ => some (.mark .dot, 1)
  | ',', _ => some (.mark .comma, 1)
  | '(', _ => some (.mark .lparen, 1)
  | ')', _ => some (.mark .rparen, 1)
  | '{', _ => some (.mark .lbrace, 1)
  | '}', _ => some (.mark .rbrace, 1)
  | '[', _ => some (.mark .lbracket, 1)
  | ']', _ => some (.mark .rbracket, 1)
  | _, _ => none

/-- A number: digits, and a point with more digits if a digit follows the point. -/
def readNumber (cs : List Char) : Lexeme :=
  let whole := cs.takeWhile isDigit
  match cs.dropWhile isDigit with
  | '.' :: d :: rest =>
      if isDigit d then
        let fraction := (d :: rest).takeWhile isDigit
        .token (.decimal (String.ofList (whole ++ '.' :: fraction)))
          (whole.length + 1 + fraction.length)
      else .token (.integer (String.ofList whole)) whole.length
  | _ => .token (.integer (String.ofList whole)) whole.length

/-- Text in double quotes; `cs` stands behind the first one. -/
def readString (cs : List Char) : Lexeme :=
  let content := cs.takeWhile fun c => foldQuote c != '"'
  match cs.dropWhile fun c => foldQuote c != '"' with
  | [] => .fault .unterminatedString (cs.length + 1) (cs.length + 1)
  | _ :: _ => .token (.text (String.ofList (content.map foldQuote))) (content.length + 2)

/-- A character in single quotes; `cs` stands behind the first one. -/
def readCharacter : List Char → Lexeme
  | [] => .fault (.unterminatedCharacter none) 1 1
  | [c] => .fault (.unterminatedCharacter (some (foldQuote c))) 2 2
  | c :: q :: _ =>
      if foldQuote q = '\'' then .token (.text (String.ofList [foldQuote c])) 3
      else .fault .malformedCharacter 3 2

/-- A name or a reserved word. -/
def readWord (cs : List Char) : Lexeme :=
  let letters := cs.takeWhile continuesName
  .token (ofWord (String.ofList letters)) letters.length

/-- What stands at the head of a text that starts with neither a blank nor a comment. -/
def recognise (glued : Bool) : List Char → Lexeme
  | [] => .token .eof 0
  | c :: cs =>
      if foldQuote c = '"' then readString cs
      else if foldQuote c = '\'' then readCharacter cs
      else if isDigit c then readNumber (c :: cs)
      else if startsName c then readWord (c :: cs)
      else
        match symbol? glued c cs.head? with
        | some (t, length) => .token t length
        | none => .fault (.unrecognized c) 1 0

end Token

/-! ### The place in the source -/

/-- How far a text has been read: what is left, the offset where it starts, and whether a name ends
right there. -/
structure Scanner where
  rest : List Char
  offset : Nat
  glued : Bool

namespace Scanner

/-- The scanner before a text. -/
def start (cs : List Char) : Scanner := ⟨cs, 0, false⟩

/-- Steps over blanks and comments.  The flag says that the characters belong to a comment. -/
def skipTrivia : (comment : Bool) → (offset : Nat) → List Char → Nat × List Char
  | _, offset, [] => (offset, [])
  | true, offset, c :: cs => skipTrivia (c != '\n') (offset + c.utf8Size) cs
  | false, offset, c :: cs =>
      if isSpace c then skipTrivia false (offset + c.utf8Size) cs
      else if c = '-' ∧ cs.head? = some '-' then skipTrivia true (offset + c.utf8Size) cs
      else (offset, c :: cs)

/-- Steps over `n` characters. -/
def advance : (n : Nat) → (offset : Nat) → List Char → Nat × List Char
  | 0, offset, cs => (offset, cs)
  | _ + 1, offset, [] => (offset, [])
  | n + 1, offset, c :: cs => advance n (offset + c.utf8Size) cs

/-- The next token stands right here, and is the step of a loop. -/
def atDecrement (s : Scanner) : Bool :=
  s.glued && s.rest.head? == some '-' && s.rest.tail.head? == some '-'

/-- The offset and the text after the blanks and comments before the next token. -/
def skip (s : Scanner) : Nat × List Char :=
  if s.atDecrement then (s.offset, s.rest) else skipTrivia false s.offset s.rest

/-- Reads one token, or reports why there is none. -/
def next (s : Scanner) : Except LexError Spanned × Scanner :=
  let (offset, text) := s.skip
  match Token.recognise s.atDecrement text with
  | .token t length =>
      let (stop, rest) := advance length offset text
      (.ok ⟨⟨offset, stop⟩, t⟩, ⟨rest, stop, t.isName⟩)
  | .fault f reported consumed =>
      let (stop, rest) := advance consumed offset text
      (.error ⟨f, ⟨offset, (advance reported offset text).1⟩⟩, ⟨rest, stop, false⟩)

/-! ### Every token takes characters -/

theorem length_skipTrivia_le (comment : Bool) (offset : Nat) (cs : List Char) :
    (skipTrivia comment offset cs).2.length ≤ cs.length := by
  induction cs generalizing comment offset with
  | nil => cases comment <;> simp [skipTrivia]
  | cons c cs ih =>
      cases comment with
      | true => exact Nat.le_succ_of_le (ih _ _)
      | false =>
          simp only [skipTrivia]
          split
          · exact Nat.le_succ_of_le (ih _ _)
          split
          · exact Nat.le_succ_of_le (ih _ _)
          · exact Nat.le_refl _

theorem length_skip_le (s : Scanner) : s.skip.2.length ≤ s.rest.length := by
  unfold skip
  split
  · exact Nat.le_refl _
  · exact length_skipTrivia_le ..

theorem advance_snd (n offset : Nat) (cs : List Char) : (advance n offset cs).2 = cs.drop n := by
  induction n generalizing offset cs with
  | zero => simp [advance]
  | succ n ih => cases cs <;> simp [advance, ih]

end Scanner

/-- A symbol has at least one character. -/
theorem Token.symbol?_pos {glued : Bool} {c : Char} {d : Option Char} {t : Token} {n : Nat}
    (h : symbol? glued c d = some (t, n)) : 0 < n := by
  unfold symbol? at h
  split at h <;> first | (split at h <;> simp at h <;> omega) | (simp at h <;> omega)

/-- The token at the head of a text that is not empty has at least one character. -/
theorem Token.recognise_pos {glued : Bool} {c : Char} {cs : List Char} {t : Token} {n : Nat}
    (h : recognise glued (c :: cs) = .token t n) : 0 < n := by
  simp only [recognise] at h
  split at h
  · unfold readString at h
    split at h <;> simp at h
    omega
  split at h
  · unfold readCharacter at h
    split at h
    · simp at h
    · simp at h
    · split at h <;> simp at h
      omega
  split at h
  · rename_i hd
    unfold readNumber at h
    rw [List.takeWhile_cons_of_pos hd] at h
    split at h
    · split at h <;> simp at h <;> omega
    · simp at h
      omega
  split at h
  · rename_i hs
    have hc : continuesName c = true := by
      unfold startsName at hs
      unfold continuesName
      rcases Bool.or_eq_true _ _ |>.mp hs with hs | hs <;> simp [hs]
    unfold readWord at h
    rw [List.takeWhile_cons_of_pos hc] at h
    simp at h
    omega
  · split at h
    · rename_i hsym
      simp only [Lexeme.token.injEq] at h
      exact h.2 ▸ symbol?_pos hsym
    · simp at h

/-- Only the end of the text is recognised as the end. -/
theorem Token.recognise_nil {glued : Bool} {t : Token} {n : Nat}
    (h : recognise glued [] = .token t n) : t = .eof := by
  simp only [recognise, Lexeme.token.injEq] at h
  exact h.1.symm

/-- Every token but the end takes characters. -/
theorem Scanner.next_length_lt {s s' : Scanner} {t : Spanned} (h : s.next = (.ok t, s'))
    (ht : t.token ≠ .eof) : s'.rest.length < s.rest.length := by
  have hle := s.length_skip_le
  unfold Scanner.next at h
  revert h hle
  rcases s.skip with ⟨offset, text⟩
  simp only
  intro h hle
  split at h
  · rename_i t' n hrec
    simp only [Prod.mk.injEq, Except.ok.injEq] at h
    obtain ⟨rfl, rfl⟩ := h
    cases text with
    | nil => exact absurd (Token.recognise_nil hrec) ht
    | cons c cs =>
        have hpos := Token.recognise_pos hrec
        simp only [advance_snd, List.length_drop]
        simp only [List.length_cons] at hle ⊢
        omega
  · simp at h

/-! ### The whole text -/

/-- What reading a text came to: the tokens in order, the error that stopped it, if any, and the
scanner where it stopped. -/
structure Scan where
  tokens : List Spanned
  error : Option LexError
  stop : Scanner

/-- Reads tokens up to the end of the text or the first error. -/
def Scanner.scan (s : Scanner) : Scan :=
  match _h : s.next with
  | (.error e, s') => ⟨[], some e, s'⟩
  | (.ok t, s') =>
      if _ht : t.token = .eof then ⟨[t], none, s'⟩
      else
        let later := scan s'
        { later with tokens := t :: later.tokens }
termination_by s.rest.length
decreasing_by
  exact Scanner.next_length_lt _h _ht

/-- Takes `n` steps of reading, whatever they come to. -/
def Scanner.steps : (n : Nat) → Scanner → List (Except LexError Spanned)
  | 0, _ => []
  | n + 1, s => s.next.1 :: steps n s.next.2

/-- The tokens, or the error that stopped the reading. -/
def Scan.result (s : Scan) : Except LexError (List Spanned) :=
  match s.error with
  | none => .ok s.tokens
  | some e => .error e

/-- The tokens of a text, the end included, or its first error. -/
def tokenize (text : String) : Except LexError (List Spanned) :=
  (Scanner.start text.toList).scan.result

end BisayaLang
