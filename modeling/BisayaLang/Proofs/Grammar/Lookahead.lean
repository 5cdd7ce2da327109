/-
**What a parser sees of the tokens ahead.**

A parser decides by at most three tokens: the next one and the two behind it.  Here these are tied to
the list of the tokens that are left, with the spans forgotten: two cursors that see the same tokens
ahead take the same decisions, wherever the tokens stand in their sources.

Main definitions:

* `BisayaLang.Cursor.kinds` — the tokens that are left, without their spans;
* `BisayaLang.operandAhead` — an operand stands at the head of a list of tokens, and is not the target
  of an assignment;
* `BisayaLang.Bracket.closing` — the token that closes a bracket.

Main results:

* `BisayaLang.Stacks.negates_eq` — whether `DILI` negates depends on the tokens behind it only.
-/

import BisayaLang.Grammar.Expression

set_option relaxedAutoImplicit false
set_option autoImplicit false

namespace BisayaLang

namespace Cursor

/-- The tokens that are left, without their spans. -/
def kinds (c : Cursor) : List Token := c.tokens.map Spanned.token

theorem current_eq (c : Cursor) : c.current = c.kinds.headD .eof := by
  unfold current kinds
  cases c.tokens <;> rfl

theorem peek_eq : ∀ c : Cursor, c.peek = c.step.current
  | ⟨[], _⟩ => rfl
  | ⟨[_], _⟩ => rfl
  | ⟨_ :: _ :: _, _⟩ => rfl

theorem peekSecond_eq : ∀ c : Cursor, c.peekSecond = c.step.step.current
  | ⟨[], _⟩ => rfl
  | ⟨[_], _⟩ => rfl
  | ⟨[_, _], _⟩ => rfl
  | ⟨_ :: _ :: _ :: _, _⟩ => rfl

theorem kinds_step (c : Cursor) : c.step.kinds = c.kinds.tail := by
  unfold step kinds
  cases h : c.tokens <;> simp [h]

theorem current_of_kinds {c : Cursor} {t : Token} {ts : List Token} (h : c.kinds = t :: ts) :
    c.current = t := by
  rw [current_eq, h]
  rfl

theorem kinds_step_of_kinds {c : Cursor} {t : Token} {ts : List Token} (h : c.kinds = t :: ts) :
    c.step.kinds = ts := by
  rw [kinds_step, h]
  rfl

/-- A token that is not the end is the first of those that are left. -/
theorem tokens_of_current {c : Cursor} (h : c.current ≠ .eof) :
    ∃ t rest, c.tokens = t :: rest ∧ t.token = c.current ∧ t.span = c.span ∧
      c.step = ⟨rest, t.span.stop⟩ := by
  rcases c with ⟨_ | ⟨t, rest⟩, lastEnd⟩
  · exact absurd rfl h
  · exact ⟨t, rest, rfl, rfl, rfl, rfl⟩

/-- Stepping over a token that is not the end leaves fewer tokens. -/
theorem length_step_lt {c : Cursor} (h : c.current ≠ .eof) :
    c.step.tokens.length < c.tokens.length := by
  obtain ⟨t, rest, ht, -, -, hs⟩ := tokens_of_current h
  rw [hs, ht]
  exact Nat.lt_succ_self _

/-- The tokens ahead of a cursor that does not stand at the end. -/
theorem kinds_of_current {c : Cursor} (h : c.current ≠ .eof) :
    c.kinds = c.current :: c.step.kinds := by
  obtain ⟨t, rest, ht, hk, -, hs⟩ := tokens_of_current h
  unfold kinds
  rw [hs, ht, ← hk]
  rfl

end Cursor

/-- An operand stands at the head, and is not the target of an assignment. -/
def operandAhead : List Token → Bool
  | [] => false
  | t :: rest => t.startsOperand && !(t.isName && (rest.headD .eof).isAssign)

/-- Whether `DILI` negates depends on the tokens behind it only. -/
theorem Stacks.negates_eq (c : Cursor) : Stacks.negates c = operandAhead c.step.kinds := by
  unfold Stacks.negates
  rw [Cursor.peek_eq, Cursor.peekSecond_eq, Cursor.current_eq, Cursor.current_eq,
    Cursor.kinds_step c.step]
  cases c.step.kinds <;> rfl

/-- The token that closes a bracket. -/
def Bracket.closing : Bracket → Token
  | .round => .mark .rparen
  | .square => .mark .rbracket

end BisayaLang
