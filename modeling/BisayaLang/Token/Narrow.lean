/-
**Offsets of 32 bits.**

A word of 32 bits has no room for the offsets of a text of 2 ^ 32 bytes or more: behind so many bytes they
start again from zero.  Such a text is still read to its end, but the spans of its tokens are not in order
any more, and a `--` that stands a multiple of 2 ^ 32 bytes behind the end of a name is taken for the step
of a loop.

A `NarrowScanner` reads tokens with such offsets.  Instead of whether a name ends right here it keeps the
offset where one did.

Main definitions:

* `BisayaLang.NarrowScanner` — a place in a text, with an offset of 32 bits;
* `BisayaLang.NarrowScanner.next`, `BisayaLang.NarrowScanner.scan` — one token, and all tokens from there;
* `BisayaLang.tokenizeNarrow` — the tokens of a text.

Main results:

* `BisayaLang.NarrowScanner.next_length_lt` — every token but the end takes characters, so that reading
  comes to an end.
-/

import BisayaLang.Token.Scanner

set_option relaxedAutoImplicit false
set_option autoImplicit false

namespace BisayaLang

/-- How far a text has been read: what is left, the offset where it starts, and the offset where the last
token ended if it was a name. -/
structure NarrowScanner where
  rest : List Char
  offset : UInt32
  nameEnd : Option UInt32

namespace NarrowScanner

/-- The scanner before a text. -/
def start (cs : List Char) : NarrowScanner := ⟨cs, 0, none⟩

/-- Steps over blanks and comments.  The flag says that the characters belong to a comment.  At the offset
where a name ended no comment starts. -/
def skip (nameEnd : Option UInt32) :
    (comment : Bool) → (offset : UInt32) → List Char → UInt32 × List Char
  | _, offset, [] => (offset, [])
  | true, offset, c :: cs => skip nameEnd (c != '\n') (offset + .ofNat c.utf8Size) cs
  | false, offset, c :: cs =>
      if isSpace c then skip nameEnd false (offset + .ofNat c.utf8Size) cs
      else if c = '-' ∧ cs.head? = some '-' ∧ nameEnd ≠ some offset then
        skip nameEnd true (offset + .ofNat c.utf8Size) cs
      else (offset, c :: cs)

/-- Steps over `n` characters. -/
def advance : (n : Nat) → (offset : UInt32) → List Char → UInt32 × List Char
  | 0, offset, cs => (offset, cs)
  | _ + 1, offset, [] => (offset, [])
  | n + 1, offset, c :: cs => advance n (offset + .ofNat c.utf8Size) cs

/-- Reads one token, or reports why there is none. -/
def next (s : NarrowScanner) : Except LexError (Spanned × NarrowScanner) :=
  let (offset, text) := skip s.nameEnd false s.offset s.rest
  match Token.recognise (s.nameEnd == some offset) text with
  | .token t length =>
      let (stop, rest) := advance length offset text
      .ok (⟨⟨offset.toNat, stop.toNat⟩, t⟩, ⟨rest, stop, if t.isName then some stop else none⟩)
  | .fault f reported _ => .error ⟨f, ⟨offset.toNat, (advance reported offset text).1.toNat⟩⟩

/-! ### Every token takes characters -/

theorem length_skip_le (nameEnd : Option UInt32) (comment : Bool) (offset : UInt32) (cs : List Char) :
    (skip nameEnd comment offset cs).2.length ≤ cs.length := by
  induction cs generalizing comment offset with
  | nil => cases comment <;> simp [skip]
  | cons c cs ih =>
      cases comment with
      | true => exact Nat.le_succ_of_le (ih _ _)
      | false =>
          simp only [skip]
          split
          · exact Nat.le_succ_of_le (ih _ _)
          split
          · exact Nat.le_succ_of_le (ih _ _)
          · exact Nat.le_refl _

theorem advance_snd (n : Nat) (offset : UInt32) (cs : List Char) :
    (advance n offset cs).2 = cs.drop n := by
  induction n generalizing offset cs with
  | zero => simp [advance]
  | succ n ih => cases cs <;> simp [advance, ih]

/-- Every token but the end takes characters. -/
theorem next_length_lt {s s' : NarrowScanner} {t : Spanned} (h : s.next = .ok (t, s'))
    (ht : t.token ≠ .eof) : s'.rest.length < s.rest.length := by
  have hle := length_skip_le s.nameEnd false s.offset s.rest
  unfold next at h
  generalize skip s.nameEnd false s.offset s.rest = skipped at h hle
  obtain ⟨offset, text⟩ := skipped
  simp only at h hle
  split at h <;> cases h
  rename_i hrec
  rw [advance_snd]
  cases text with
  | nil => exact absurd (Token.recognise_nil hrec) ht
  | cons c cs =>
      have hpos := Token.recognise_pos hrec
      rw [List.length_drop]
      rw [List.length_cons] at hle ⊢
      omega

/-- Reads tokens up to the end of the text or the first error. -/
def scan (s : NarrowScanner) : Except LexError (List Spanned) :=
  match _h : s.next with
  | .error e => .error e
  | .ok (t, s') => if _ht : t.token = .eof then .ok [t] else (t :: ·) <$> scan s'
termination_by s.rest.length
decreasing_by
  exact next_length_lt _h _ht

end NarrowScanner

/-- The tokens of a text, the end included, or its first error, with offsets of 32 bits. -/
def tokenizeNarrow (text : String) : Except LexError (List Spanned) :=
  (NarrowScanner.start text.toList).scan

end BisayaLang
