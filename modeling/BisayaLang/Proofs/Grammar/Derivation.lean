/-
**Derivations of expressions.**

What the recursive reader does on its way to an expression is written down here as a derivation: one
rule for a token that is an operand, and one for each way to make a larger expression of smaller ones.
The rules keep what the reader has seen ahead: an operand of an operator ends where no tighter operator
follows.  Whatever holds of every expression that can be read is then shown by induction on its
derivation, and neither stacks nor recursion come into it.

Main definitions:

* `BisayaLang.Reads` — an expression of operators above a level stands between two cursors.

Main results:

* `BisayaLang.climb?_eq_some_iff` — the recursive reader finds exactly the derivations that end where
  nothing extends the expression;
* `BisayaLang.expression_eq_ok_iff` — the same for the reader with stacks;
* `BisayaLang.Reads.tokens_eq` — what is read is a run of tokens that is not empty, and is written back
  as the same run;
* `BisayaLang.expression_agrees_with_climbing` — the two readers agree, on failure and on success, and
  stop at the first token that does not extend the expression.
-/

import BisayaLang.Proofs.Canonical.Tokens
import BisayaLang.Proofs.Grammar.Climbing

set_option relaxedAutoImplicit false
set_option autoImplicit false

namespace BisayaLang

open Climb

/-- The tokens from the first cursor to the second are an expression whose outermost operators all bind
tighter than `min`. -/
inductive Reads : (min : Nat) → Cursor → Expr → Cursor → Prop
  | atom {min : Nat} {c : Cursor} {e : Expr} : lead? c = some (.atom e) → Reads min c e c.step
  | unary {min : Nat} {c d : Cursor} {op : UnaryOp} {e : Expr} : lead? c = some (.unary op) →
      Reads op.precedence c.step e d → Stops op.precedence d →
      Reads min c (.unary op e ⟨c.span.start, e.span.stop⟩) d
  | group {min : Nat} {c d : Cursor} {b : Bracket} {e : Expr} : lead? c = some (.opening b) →
      Reads 0 c.step e d → d.current = b.closing →
      Reads min c (.group e ⟨c.span.start, d.span.stop⟩) d.step
  | binary {min : Nat} {c d d' : Cursor} {op : BinaryOp} {l r : Expr} : Reads min c l d →
      d.current = .op op → min < op.precedence → Reads op.precedence d.step r d' →
      Stops op.precedence d' → Reads min c (.binary op l r (l.span.cover r.span)) d'

/-! ### Derivations and the recursive reader -/

theorem stops_of_closing {c : Cursor} {b : Bracket} (h : c.current = b.closing) (m : Nat) :
    Stops m c := stops_of_not_op (fun op => h ▸ closing_ne_op b op) m

/-- Behind what has a derivation, the recursive reader goes on. -/
theorem Reads.climb?_eq {min : Nat} {c d : Cursor} {e : Expr} (h : Reads min c e d) :
    climb? min c = extend? min e d := by
  induction h with
  | atom hl => rw [Climb.climb?_eq, operand?_atom hl]; rfl
  | unary hl _ hs ih =>
      rw [Climb.climb?_eq, operand?_unary hl, ih, extend?_stop hs]
      rfl
  | group hl _ hcl ih =>
      rw [Climb.climb?_eq, operand?_opening hl, ih, extend?_stop (stops_of_closing hcl 0)]
      simp only [Option.bind_some, if_pos hcl]
  | binary _ hop hlt _ hs ihl ihr =>
      rw [ihl, extend?_op hop hlt, ihr, extend?_stop hs]
      rfl

/-- The tokens of what the next token leads. -/
def Lead.tokens : Lead → List Token
  | .atom e => e.tokens
  | .unary op => [op.token]
  | .opening _ => [.mark .lparen]

theorem tokens_of_lead {c : Cursor} {l : Lead} (h : lead? c = some l) :
    l.tokens = [c.current.tidy] := by
  unfold lead? at h
  split at h
  case h_1 hc | h_2 hc =>
      obtain ⟨x, -, rfl⟩ := Option.map_eq_some_iff.1 h
      rw [hc]
      rfl
  case h_5 hc =>
      split at h
      · cases h
        rw [hc]
        rfl
      · cases h
        rw [hc]
        rfl
  case h_10 => exact absurd h (by simp)
  all_goals
      rename_i hc
      cases h
      rw [hc]
      rfl

theorem tidy_closing (b : Bracket) : b.closing.tidy = .mark .rparen := by
  cases b <;> rfl

/-- What is read is a run of tokens that is not empty, and is written back as the same run. -/
theorem Reads.tokens_eq {min : Nat} {c d : Cursor} {e : Expr} (h : Reads min c e d) :
    ∃ run, run ≠ [] ∧ c.tokens = run ++ d.tokens ∧ e.tokens = run.map fun t => t.token.tidy := by
  have hstep : ∀ {c : Cursor}, c.current ≠ .eof →
      ∃ t, c.tokens = t :: c.step.tokens ∧ t.token = c.current := by
    intro c hc
    obtain ⟨t, rest, ht, hk, -, hs⟩ := Cursor.tokens_of_current hc
    exact ⟨t, by rw [hs, ht], hk⟩
  have hlead : ∀ {c : Cursor} {l : Lead}, lead? c = some l →
      ∃ t, c.tokens = t :: c.step.tokens ∧ l.tokens = [t.token.tidy] := by
    intro c l hl
    obtain ⟨t, ht, hk⟩ := hstep (c := c) fun he => by simp [lead?_eof he] at hl
    exact ⟨t, ht, by rw [hk, tokens_of_lead hl]⟩
  induction h with
  | atom hl =>
      obtain ⟨t, ht, hk⟩ := hlead hl
      exact ⟨[t], by simp, ht, hk⟩
  | unary hl _ _ ih =>
      obtain ⟨t, ht, hk⟩ := hlead hl
      obtain ⟨run, -, hrun, hks⟩ := ih
      refine ⟨t :: run, by simp, by rw [ht, hrun]; rfl, ?_⟩
      rw [Expr.tokens, hks, List.map_cons, (List.cons.inj hk).1]
  | @group _ c d b _ hl _ hcl ih =>
      obtain ⟨t, ht, hk⟩ := hlead hl
      obtain ⟨run, -, hrun, hks⟩ := ih
      obtain ⟨last, hlast, hkl⟩ := hstep (c := d) (hcl ▸ closing_ne_eof b)
      refine ⟨t :: (run ++ [last]), by simp, ?_, ?_⟩
      · rw [ht, hrun, hlast]
        simp
      · rw [Expr.tokens, hks, List.map_cons, List.map_append, (List.cons.inj hk).1]
        simp only [List.map_cons, List.map_nil, hkl, hcl, tidy_closing]
  | @binary _ c d d' op _ _ _ hop _ _ _ ihl ihr =>
      obtain ⟨run, hne, hrun, hks⟩ := ihl
      obtain ⟨t, ht, hk⟩ := hstep (c := d) (by simp [hop])
      obtain ⟨run', -, hrun', hks'⟩ := ihr
      refine ⟨run ++ t :: run', by simp, ?_, ?_⟩
      · rw [hrun, ht, hrun']
        simp
      · rw [Expr.tokens, hks, hks', List.map_append, List.map_cons, hk, hop]
        rfl

theorem Reads.kinds_eq {min : Nat} {c d : Cursor} {e : Expr} (h : Reads min c e d) :
    ∃ run, run ≠ [] ∧ c.kinds = run ++ d.kinds ∧ e.tokens = run.map Token.tidy := by
  obtain ⟨run, hne, hrun, hks⟩ := h.tokens_eq
  refine ⟨run.map Spanned.token, by simp [hne], ?_, ?_⟩
  · rw [Cursor.kinds, hrun, List.map_append]
    rfl
  · rw [hks, List.map_map]
    rfl

theorem Reads.length_lt {min : Nat} {c d : Cursor} {e : Expr} (h : Reads min c e d) :
    d.tokens.length < c.tokens.length := by
  obtain ⟨run, hne, hrun, -⟩ := h.tokens_eq
  have hpos : 0 < run.length := List.length_pos_iff.2 hne
  rw [hrun, List.length_append]
  omega

/-- What the recursive reader finds has a derivation.  The three functions call each other on fewer
tokens, but for `climb?`, which calls `operand?` where it stands. -/
theorem reads_of_all (n : Nat) :
    (∀ c : Cursor, c.tokens.length < n → ∀ min e d, operand? c = some (e, d) → Reads min c e d) ∧
    (∀ c : Cursor, c.tokens.length < n → ∀ min e d, climb? min c = some (e, d) →
      Reads min c e d ∧ Stops min d) ∧
    (∀ c c₀ : Cursor, c.tokens.length < n → ∀ min l e d, Reads min c₀ l c →
      extend? min l c = some (e, d) → Reads min c₀ e d ∧ Stops min d) := by
  induction n with
  | zero => exact ⟨fun c hc => absurd hc (by omega), fun c hc => absurd hc (by omega),
      fun c c₀ hc => absurd hc (by omega)⟩
  | succ n ih =>
      obtain ⟨-, ihc, ihe⟩ := ih
      -- operands come first, because `climb?` reads one before it takes any token itself
      have hoperand : ∀ c : Cursor, c.tokens.length < n + 1 → ∀ min e d,
          operand? c = some (e, d) → Reads min c e d := by
        intro c hc min e d h
        rcases hl : lead? c with _ | l
        · rw [operand?_none hl] at h
          exact absurd h (by simp)
        · have hlt := length_step_lt_of_lead hl
          cases l with
          | atom x =>
              rw [operand?_atom hl] at h
              cases h
              exact .atom hl
          | unary op =>
              rw [operand?_unary hl] at h
              obtain ⟨⟨x, d'⟩, hx, hd⟩ := Option.bind_eq_some_iff.1 h
              cases hd
              obtain ⟨hr, hs⟩ := ihc c.step (by omega) _ _ _ hx
              exact .unary hl hr hs
          | opening b =>
              rw [operand?_opening hl] at h
              obtain ⟨⟨x, d'⟩, hx, hd⟩ := Option.bind_eq_some_iff.1 h
              simp only at hd
              split at hd
              · rename_i hcl
                cases hd
                exact .group hl (ihc c.step (by omega) _ _ _ hx).1 hcl
              · exact absurd hd (by simp)
      refine ⟨hoperand, ?_, ?_⟩
      · intro c hc min e d h
        rw [Climb.climb?_eq] at h
        obtain ⟨⟨x, d'⟩, hx, hd⟩ := Option.bind_eq_some_iff.1 h
        have hr := hoperand c hc min x d' hx
        have hlt := hr.length_lt
        exact ihe d' c (by omega) min x e d hr hd
      · intro c c₀ hc min l e d hl h
        by_cases hs : Stops min c
        · rw [extend?_stop hs] at h
          cases h
          exact ⟨hl, hs⟩
        · -- the operator takes the derivation so far as its left operand
          have hop : ∃ op, c.current = .op op ∧ min < op.precedence := by
            simp only [Stops] at hs
            simpa using hs
          obtain ⟨op, hop, hm⟩ := hop
          rw [extend?_op hop hm] at h
          obtain ⟨⟨r, d'⟩, hr, hd⟩ := Option.bind_eq_some_iff.1 h
          have hstep := Cursor.length_step_lt (c := c) (by rw [hop]; simp)
          obtain ⟨hrr, hrs⟩ := ihc c.step (by omega) _ _ _ hr
          have hlt := hrr.length_lt
          exact ihe d' c₀ (by omega) min _ e d (.binary hl hop hm hrr hrs) hd

/-- What the recursive reader finds has a derivation, and ends where nothing extends it. -/
theorem climb?_eq_some_iff {min : Nat} {c d : Cursor} {e : Expr} :
    climb? min c = some (e, d) ↔ Reads min c e d ∧ Stops min d := by
  constructor
  · exact (reads_of_all (c.tokens.length + 1)).2.1 c (Nat.lt_succ_self _) min e d
  · rintro ⟨h, hs⟩
    rw [h.climb?_eq, extend?_stop hs]

/-- **The reader with stacks finds exactly the derivations** that end where nothing extends the
expression. -/
theorem expression_eq_ok_iff {c d : Cursor} {e : Expr} :
    Parse.expression c = .ok e d ↔ Reads 0 c e d ∧ Stops 0 d := by
  rw [← climb?_eq_some_iff, ← result?_expression]
  cases Parse.expression c <;> simp [result?]

/-- The reader with stacks and the recursive reader agree: they fail on the same tokens, and where they
succeed the tree, its spans and the place behind it are the same.  That place is behind at least one
token, and the token there is no operator, so that it could not extend the expression. -/
theorem expression_agrees_with_climbing (c : Cursor) :
    result? (Parse.expression c) = climb? 0 c ∧
    ∀ e d, climb? 0 c = some (e, d) →
      (∃ run, run ≠ [] ∧ c.tokens = run ++ d.tokens) ∧ d.current.isBinary = false := by
  refine ⟨result?_expression c, fun e d h => ?_⟩
  obtain ⟨hr, hs⟩ := climb?_eq_some_iff.1 h
  obtain ⟨run, hne, hrun, -⟩ := hr.tokens_eq
  refine ⟨⟨run, hne, hrun⟩, ?_⟩
  cases hd : d.current with
  | op op => exact absurd (hs op hd) (Nat.not_le.2 (precedence_pos op))
  | _ => rfl

end BisayaLang
