/-
**Tokens of a file that is being read.**

A file that is read character by character is not known as a whole.  Its tokens are found through a
*window* of two characters that moves along the file: the first decides what kind of token it starts,
and the second whether the token has another character.  Moving the window asks the file for one more
character, so that never more of it is read than two characters behind a token.

Typographic quotes are read as the plain ones when they come into the window.

Main definitions:

* `BisayaLang.Window`, `BisayaLang.Window.step` — the window, and moving it by one character;
* `BisayaLang.Window.skip` — moving it over blanks and comments;
* `BisayaLang.Window.lexeme` — the token that starts in the window;
* `BisayaLang.Window.scan` — all tokens up to the end of the file or the first error.

Main results:

* `BisayaLang.Window.left_next_lt` — every token but the end uses up characters, so that reading comes to
  an end.
-/

import BisayaLang.Source.Feed
import BisayaLang.Token.Scanner

set_option relaxedAutoImplicit false
set_option autoImplicit false

namespace BisayaLang

open Text

/-- Two characters of a file that is being read. -/
structure Window where
  /-- what is behind the window -/
  feed : Feed
  current : Option Char
  ahead : Option Char
  /-- the offset of the first character -/
  offset : Nat
  /-- the offset of the second character -/
  aheadOffset : Nat
  /-- the offset behind the last character that was read -/
  stop : Nat
  /-- where the last token ended, if it was a name -/
  nameEnd : Option Nat

namespace Window

/-! ### Moving the window -/

/-- Moves the window by one character. -/
def step (w : Window) : Window :=
  match w.feed.pull with
  | (some (offset, c), feed) =>
      { w with
        feed, current := w.ahead, ahead := some (foldQuote c), offset := w.aheadOffset
        aheadOffset := offset, stop := offset + c.utf8Size }
  | (none, feed) =>
      { w with
        feed, current := w.ahead, ahead := none, offset := w.aheadOffset, aheadOffset := w.stop }

/-- The window before the characters of a feed. -/
def start (feed : Feed) : Window := step (step ⟨feed, none, none, 0, 0, 0, none⟩)

/-- A name ends right before the window. -/
def glued (w : Window) : Bool := w.nameEnd == some w.offset

/-- The number of characters that may be left, those in the window included. -/
def left (w : Window) : Nat :=
  w.feed.answers.length + w.ahead.toList.length + w.current.toList.length

theorem left_step_le (w : Window) : w.step.left + w.current.toList.length ≤ w.left := by
  have hle := w.feed.length_pull_le
  unfold step left
  split <;> rename_i heq <;> rw [heq] at hle <;>
    simp only [Option.toList_some, Option.toList_none, List.length_cons, List.length_nil] at hle ⊢ <;>
    omega

theorem left_step_lt {w : Window} {c : Char} (h : w.current = some c) : w.step.left < w.left := by
  have hle := w.left_step_le
  rw [h] at hle
  exact hle

/-- Moves the window over the characters of a class, and gives them. -/
def takeWhile (p : Char → Bool) (w : Window) : List Char × Window :=
  match _h : w.current with
  | none => ([], w)
  | some c =>
      if p c then
        let (cs, w') := takeWhile p w.step
        (c :: cs, w')
      else ([], w)
termination_by w.left
decreasing_by
  exact left_step_lt _h

theorem left_takeWhile_le (p : Char → Bool) (w : Window) : (takeWhile p w).2.left ≤ w.left := by
  fun_induction takeWhile p w with
  | case1 w h => exact Nat.le_refl _
  | case2 w c h hp cs w' heq ih =>
      rw [heq] at ih
      exact Nat.le_trans ih (Nat.le_of_lt (left_step_lt h))
  | case3 w c h hp => exact Nat.le_refl _

/-- Moves the window over blanks and comments.  Directly behind a name there is no comment. -/
def skip (w : Window) : Window :=
  match _h : w.current with
  | none => w
  | some c =>
      if isSpace c then skip w.step
      else if c = '-' ∧ w.ahead = some '-' ∧ w.glued = false then
        skip (w.step.takeWhile (· != '\n')).2
      else w
termination_by w.left
decreasing_by
  · exact left_step_lt _h
  · exact Nat.lt_of_le_of_lt (left_takeWhile_le _ _) (left_step_lt _h)

theorem left_skip_le (w : Window) : w.skip.left ≤ w.left := by
  fun_induction skip w with
  | case1 w h => exact Nat.le_refl _
  | case2 w c h hs ih => exact Nat.le_trans ih (Nat.le_of_lt (left_step_lt h))
  | case3 w c h hs hd ih =>
      exact Nat.le_trans ih
        (Nat.le_trans (left_takeWhile_le _ _) (Nat.le_of_lt (left_step_lt h)))
  | case4 w c h hs hd => exact Nat.le_refl _

/-! ### One token -/

/-- A token that starts in one window and ends before another. -/
def token (w w' : Window) (t : Token) : Except LexError Spanned × Window :=
  (.ok ⟨⟨w.offset, w'.offset⟩, t⟩, w')

/-- A fault from the start of one window up to an offset. -/
def fault (w : Window) (f : LexFault) (stop : Nat) (w' : Window) :
    Except LexError Spanned × Window :=
  (.error ⟨f, ⟨w.offset, stop⟩⟩, w')

/-- A name or a reserved word. -/
def readWord (w : Window) : Except LexError Spanned × Window :=
  let (letters, w') := w.takeWhile continuesName
  w.token w' (.ofWord (String.ofList letters))

/-- A number: digits, and a point with more digits if a digit follows the point. -/
def readNumber (w : Window) : Except LexError Spanned × Window :=
  let (whole, w₁) := w.takeWhile isDigit
  if w₁.current = some '.' ∧ w₁.ahead.any isDigit then
    let (fraction, w₂) := w₁.step.takeWhile isDigit
    w.token w₂ (.decimal (String.ofList (whole ++ '.' :: fraction)))
  else w.token w₁ (.integer (String.ofList whole))

/-- Text in double quotes. -/
def readString (w : Window) : Except LexError Spanned × Window :=
  let (content, w₁) := w.step.takeWhile (· != '"')
  match w₁.current with
  | none => w.fault .unterminatedString w₁.offset w₁
  | some _ => w.token w₁.step (.text (String.ofList content))

/-- A character in single quotes. -/
def readCharacter (w : Window) : Except LexError Spanned × Window :=
  let w₁ := w.step
  let w₂ := w₁.step
  match w₁.current with
  | none => w.fault (.unterminatedCharacter none) w₂.offset w₂
  | some c =>
      match w₂.current with
      | none => w.fault (.unterminatedCharacter (some c)) w₂.offset w₂
      | some q =>
          if q = '\'' then w.token w₂.step (.text (String.ofList [c]))
          else w.fault .malformedCharacter w₂.aheadOffset w₂

/-- A token of one or two special characters. -/
def readSymbol (w : Window) (c : Char) : Except LexError Spanned × Window :=
  match Token.symbol? w.glued c w.ahead with
  | some (t, 1) => w.token w.step t
  | some (t, _) => w.token w.step.step t
  | none => w.fault (.unrecognized c) w.aheadOffset w

/-- The token that starts in the window, where neither a blank nor a comment does. -/
def lexeme (w : Window) : Except LexError Spanned × Window :=
  match w.current with
  | none => w.token w.step .eof
  | some c =>
      if c = '"' then w.readString
      else if c = '\'' then w.readCharacter
      else if isDigit c then w.readNumber
      else if startsName c then w.readWord
      else w.readSymbol c

/-- Reads one token, or reports why there is none. -/
def next (w : Window) : Except LexError Spanned × Window :=
  match w.skip.lexeme with
  | (.ok t, w') => (.ok t, { w' with nameEnd := if t.token.isName then some t.span.stop else none })
  | (.error e, w') => (.error e, w')

/-! ### Every token uses up characters -/

theorem left_takeWhile_lt {p : Char → Bool} {w : Window} {c : Char} (hc : w.current = some c)
    (hp : p c = true) : (w.takeWhile p).2.left < w.left := by
  rw [takeWhile]
  split
  · rename_i h
    rw [hc] at h
    cases h
  · rename_i d h
    rw [hc] at h
    cases h
    rw [if_pos hp]
    exact Nat.lt_of_le_of_lt (left_takeWhile_le _ _) (left_step_lt hc)

/-- The token that starts in the window uses up the first character. -/
theorem left_lexeme_lt {w w' : Window} {t : Spanned} (h : w.lexeme = (.ok t, w'))
    (ht : t.token ≠ .eof) : w'.left < w.left := by
  unfold lexeme at h
  split at h
  · cases h
    exact absurd rfl ht
  rename_i c hc
  have hstep := left_step_lt hc
  split at h
  · unfold readString at h
    have hle := left_takeWhile_le (· != '"') w.step
    have hle' := left_step_le (w.step.takeWhile (· != '"')).2
    simp only at h
    split at h
    · cases h
    · cases h
      omega
  split at h
  · unfold readCharacter at h
    have hle := left_step_le w.step
    have hle' := left_step_le w.step.step
    simp only at h
    split at h
    · cases h
    · split at h
      · cases h
      · split at h
        · cases h
          omega
        · cases h
  split at h
  · rename_i hd
    unfold readNumber at h
    have hlt := left_takeWhile_lt (p := isDigit) hc hd
    have hle := left_step_le (w.takeWhile isDigit).2
    have hle' := left_takeWhile_le isDigit (w.takeWhile isDigit).2.step
    simp only at h
    split at h
    · cases h
      omega
    · cases h
      exact hlt
  split at h
  · rename_i hs
    have hcont : continuesName c = true := by
      unfold startsName at hs
      unfold continuesName
      rcases Bool.or_eq_true _ _ |>.mp hs with hs | hs <;> simp [hs]
    cases h
    exact left_takeWhile_lt hc hcont
  · unfold readSymbol at h
    have hle := left_step_le w.step
    split at h
    · cases h
      exact hstep
    · cases h
      omega
    · cases h

/-- Every token but the end uses up characters. -/
theorem left_next_lt {w w' : Window} {t : Spanned} (h : w.next = (.ok t, w'))
    (ht : t.token ≠ .eof) : w'.left < w.left := by
  unfold next at h
  split at h
  · rename_i u w'' hlex
    cases h
    have hlt : w''.left < w.skip.left := left_lexeme_lt hlex ht
    exact Nat.lt_of_lt_of_le hlt w.left_skip_le
  · cases h

/-! ### The whole file -/

/-- Reads tokens up to the end of the file or the first error. -/
def scan (w : Window) : Except LexError (List Spanned) × Window :=
  match _h : w.next with
  | (.error e, w') => (.error e, w')
  | (.ok t, w') =>
      if _ht : t.token = .eof then (.ok [t], w')
      else
        let (tokens, w'') := scan w'
        ((t :: ·) <$> tokens, w'')
termination_by w.left
decreasing_by
  exact left_next_lt _h _ht

end Window

end BisayaLang
