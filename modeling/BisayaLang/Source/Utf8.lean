/-
**Reading characters from bytes.**

A program file and a line of input are bytes.  Characters are read from them one after the other,
and a sequence of bytes that encodes no character is a *fault* in the place of one character;
reading goes on after it.

Main definitions:

* `BisayaLang.Utf8.Fault` — why a sequence encodes no character;
* `BisayaLang.Utf8.readChar` — one character, or one fault, and the bytes after it;
* `BisayaLang.Utf8.readAll` — everything, in order;
* `BisayaLang.Utf8.decode?` — the characters of bytes without any fault.
-/

set_option relaxedAutoImplicit false
set_option autoImplicit false

namespace BisayaLang.Utf8

/-- Why bytes encode no character. -/
inductive Fault where
  /-- the bytes are no character, whatever follows -/
  | malformed
  /-- the bytes end inside a character -/
  | truncated
  deriving DecidableEq

/-- Reads `n` continuation bytes, six bits each, below the bits in `acc`.  A byte that is no
continuation byte stays unread. -/
def continuation : (n : Nat) → (acc : Nat) → List UInt8 → Except Fault Nat × List UInt8
  | 0, acc, bytes => (.ok acc, bytes)
  | _ + 1, _, [] => (.error .truncated, [])
  | n + 1, acc, b :: bytes =>
      if 0x80 ≤ b.toNat ∧ b.toNat < 0xC0 then
        continuation n (acc * 64 + (b.toNat - 0x80)) bytes
      else (.error .malformed, b :: bytes)

theorem length_continuation_le (n acc : Nat) (bytes : List UInt8) :
    (continuation n acc bytes).2.length ≤ bytes.length := by
  induction n generalizing acc bytes with
  | zero => simp [continuation]
  | succ n ih =>
      cases bytes with
      | nil => simp [continuation]
      | cons b bytes =>
          simp only [continuation]
          split
          · exact Nat.le_trans (ih _ _) (by simp)
          · simp

/-- A character of several bytes: the bits of the lead byte, then `n` continuation bytes.  The code
point has to be one that needs as many bytes (at least `least`) and that is a character. -/
def multibyte (n bits least : Nat) (bytes : List UInt8) : Except Fault Char × List UInt8 :=
  match continuation n bits bytes with
  | (.error f, rest) => (.error f, rest)
  | (.ok code, rest) =>
      if least ≤ code ∧ code.isValidChar then (.ok (Char.ofNat code), rest)
      else (.error .malformed, rest)

theorem length_multibyte_le (n bits least : Nat) (bytes : List UInt8) :
    (multibyte n bits least bytes).2.length ≤ bytes.length := by
  have h := length_continuation_le n bits bytes
  revert h
  unfold multibyte
  split <;> rename_i heq <;> simp only [heq] <;> intro h
  · exact h
  · split <;> exact h

/-- Reads the character that starts with the byte `b`. -/
def readChar (b : UInt8) (bytes : List UInt8) : Except Fault Char × List UInt8 :=
  let lead := b.toNat
  if lead < 0x80 then (.ok (Char.ofNat lead), bytes)
  else if lead < 0xC0 then (.error .malformed, bytes)
  else if lead < 0xE0 then multibyte 1 (lead - 0xC0) 0x80 bytes
  else if lead < 0xF0 then multibyte 2 (lead - 0xE0) 0x800 bytes
  else if lead < 0xF8 then multibyte 3 (lead - 0xF0) 0x10000 bytes
  else (.error .malformed, bytes)

theorem length_readChar_le (b : UInt8) (bytes : List UInt8) :
    (readChar b bytes).2.length ≤ bytes.length := by
  unfold readChar
  simp only
  split
  · simp
  split
  · simp
  split
  · exact length_multibyte_le ..
  split
  · exact length_multibyte_le ..
  split
  · exact length_multibyte_le ..
  · simp

/-- All characters and faults of the bytes, in order. -/
def readAll : List UInt8 → List (Except Fault Char)
  | [] => []
  | b :: bytes => (readChar b bytes).1 :: readAll (readChar b bytes).2
termination_by bytes => bytes.length
decreasing_by
  exact Nat.lt_succ_of_le (length_readChar_le b bytes)

/-- The characters up to the first fault, and the items from that fault on. -/
def splitAtFault : List (Except Fault Char) → List Char × List (Except Fault Char)
  | [] => ([], [])
  | .error f :: items => ([], .error f :: items)
  | .ok c :: items =>
      let (chars, rest) := splitAtFault items
      (c :: chars, rest)

/-- The characters of the bytes, if there is no fault among them. -/
def decode? (bytes : List UInt8) : Option (List Char) :=
  match splitAtFault (readAll bytes) with
  | (chars, []) => some chars
  | (_, _ :: _) => none

/-- The bytes of a text. -/
def encode (s : String) : List UInt8 := s.toUTF8.data.toList

end BisayaLang.Utf8
