/-
**The stacks of an expression in balance.**

The reader of expressions has branches for what cannot happen: an operator without operands, a closing
bracket where none is open, an operand that is left over.  Two counts exclude them.  On the operator
stack wait as many opening brackets as the depth says; and there are as many operands as binary
operators wait, and one more behind an operand.  The counts hold because the stacks stand for pending
calls, of which a binary operator brings its left operand along.

What is left are the errors that a reader of the text can make.  Nothing was read at all, or an operand
is missing where the reader stands, or a bracket is not closed or is closed by one of the other shape.
To say which bracket that is, the calls are laid over the tokens that were read: between the brackets
that are open all others are balanced.

Main definitions:

* `BisayaLang.Stacks.Visits` — the stacks at the turns of the loop, with the cursor there;
* `BisayaLang.Reduces` — completing operators, one after the other;
* `BisayaLang.Stacks.Balanced` — the two counts, and what they exclude;
* `BisayaLang.Matched` — the brackets among some tokens are balanced;
* `BisayaLang.Opened`, `BisayaLang.Stacks.Holds` — the brackets that are open in what was read are those
  of the pending calls;
* `BisayaLang.ExpressionFault` — what can be wrong with an expression.

Main results:

* `BisayaLang.Stacks.InCalls.balanced` — stacks of pending calls are in balance;
* `BisayaLang.shift_operator_cases` — what a token behind an operand does to the stacks;
* `BisayaLang.Stacks.Holds.shift` — one token keeps the stacks in step with what was read;
* `BisayaLang.Stacks.Holds.fault` — the errors that they can end with;
* `BisayaLang.expression_stacks_balanced` — **every turn of the loop finds the stacks in balance, and the
  only errors are those of the text**.
-/

import BisayaLang.Proofs.Grammar.Prefixes

set_option relaxedAutoImplicit false
set_option autoImplicit false

namespace BisayaLang

open Climb

/-! ### The turns of the loop -/

/-- The reading of an expression that starts at `c` comes to the second cursor with these stacks. -/
inductive Stacks.Visits (c : Cursor) : Stacks → Cursor → Prop
  | start : Visits c .start c
  | next {s s' : Stacks} {t : Spanned} {rest : List Spanned} {lastEnd : Nat} :
      Visits c s ⟨t :: rest, lastEnd⟩ → s.shift ⟨t :: rest, lastEnd⟩ = .ok (some s') →
      Visits c s' ⟨rest, t.span.stop⟩

/-- From each turn of the loop on, the reading is that of the stacks there. -/
theorem Stacks.Visits.read {c d : Cursor} {s : Stacks} (h : s.Visits c d) :
    Parse.expression c = s.read d.tokens d.lastEnd := by
  induction h with
  | start => rfl
  | next _ hshift ih =>
      rw [ih]
      conv => lhs; unfold Stacks.read
      simp only [hshift]

/-- The end of the text belongs to no expression. -/
theorem Stacks.shift_eof {s : Stacks} {c : Cursor} (hc : c.current = .eof) (s' : Stacks) :
    s.shift c ≠ .ok (some s') := by
  intro h
  unfold Stacks.shift at h
  split at h
  · obtain ⟨err, herr⟩ : ∃ err, s.shiftOperand c = .error err := by
      simpa [lead?_eof hc] using shiftOperand_lead s c
    rw [herr] at h
    cases h
  · simp [Stacks.shiftOperator?, hc] at h

/-- Where an error comes from: the next token is at fault, or the expression ends there and is, or the
error comes up behind the token. -/
theorem Stacks.read_eq_error {s : Stacks} {tokens : List Spanned} {lastEnd : Nat} {err : SyntaxError}
    {d : Cursor} (h : s.read tokens lastEnd = .error err d) :
    (d = ⟨tokens, lastEnd⟩ ∧
      (s.shift d = .error err ∨ s.shift d = .ok none ∧ s.finish d.span = .error err)) ∨
    ∃ t rest s', tokens = t :: rest ∧ s.shift ⟨tokens, lastEnd⟩ = .ok (some s') ∧
      s'.read rest t.span.stop = .error err d := by
  unfold Stacks.read at h
  cases hshift : s.shift ⟨tokens, lastEnd⟩ with
  | error err' =>
      simp only [hshift] at h
      cases h
      exact .inl ⟨rfl, .inl hshift⟩
  | ok o =>
      cases o with
      | none =>
          simp only [hshift] at h
          split at h <;> cases h
          exact .inl ⟨rfl, .inr ⟨hshift, ‹_›⟩⟩
      | some s' =>
          cases tokens with
          | nil => exact absurd hshift (Stacks.shift_eof rfl s')
          | cons t rest =>
              simp only [hshift] at h
              exact .inr ⟨t, rest, s', rfl, rfl, h⟩

/-- An error in an expression comes from a turn of the loop. -/
theorem Stacks.Visits.of_error {c d : Cursor} {s : Stacks} {tokens : List Spanned} {lastEnd : Nat}
    {err : SyntaxError} (hs : s.Visits c ⟨tokens, lastEnd⟩)
    (h : s.read tokens lastEnd = .error err d) :
    ∃ s', Stacks.Visits c s' d ∧
      (s'.shift d = .error err ∨ s'.shift d = .ok none ∧ s'.finish d.span = .error err) := by
  induction tokens generalizing s lastEnd with
  | nil =>
      rcases Stacks.read_eq_error h with ⟨rfl, hfault⟩ | ⟨t, rest, s', htokens, -, -⟩
      · exact ⟨s, hs, hfault⟩
      · cases htokens
  | cons t rest ih =>
      rcases Stacks.read_eq_error h with ⟨rfl, hfault⟩ | ⟨t, rest, s', htokens, hshift, hrest⟩
      · exact ⟨s, hs, hfault⟩
      · cases htokens
        exact ih (.next hs hshift) hrest

/-! ### Counting -/

/-- What waits is an opening bracket. -/
def Pending.isOpening : Pending → Bool
  | .opening .. => true
  | .binary .. | .unary .. => false

/-- What waits is a binary operator. -/
def Pending.isBinary : Pending → Bool
  | .binary .. => true
  | .unary .. | .opening .. => false

/-- Completing what waits, from the last on, leaves these operands and this to wait. -/
inductive Reduces (operands : List Expr) (waiting : List Pending) : List Expr → List Pending → Prop
  | refl : Reduces operands waiting operands waiting
  | complete {ops ops' : List Expr} {p : Pending} {ws : List Pending} :
      Reduces operands waiting ops (p :: ws) → p.complete ops = .ok ops' →
      Reduces operands waiting ops' ws

/-- The stacks are in balance: as many brackets wait as the depth says, and as many operands are there
as binary operators wait, and one more behind an operand.  So whatever is completed finds its operands,
a group its bracket, and the end of the expression a single operand. -/
structure Stacks.Balanced (s : Stacks) : Prop where
  brackets : s.waiting.countP Pending.isOpening = s.depth
  operands : s.operands.length =
    s.waiting.countP Pending.isBinary + if s.expectsOperand then 0 else 1
  /-- a waiting operator finds its operands, also after others were completed -/
  completes : s.expectsOperand = false → ∀ ops p ws, Reduces s.operands s.waiting ops (p :: ws) →
    p.isOpening = false → ∃ ops', p.complete ops = .ok ops'
  /-- an operand is there for a group and for the end, where it is the only one -/
  pops : s.expectsOperand = false → ∀ ops ws, Reduces s.operands s.waiting ops ws →
    ∀ span, ∃ e rest, popOperand span ops = .ok (e, rest) ∧ (ws = [] → rest = [])
  /-- behind an operator there is nothing to be completed that fails -/
  pushes : s.expectsOperand = false → ∀ level, ∃ ops ws,
    reduceWhile level s.operands s.waiting = .ok (ops, ws) ∧ Reduces s.operands s.waiting ops ws
  /-- a closing bracket finds one that is open -/
  closes : s.expectsOperand = false → 0 < s.depth → ∃ ops b start ws,
    reduceWhile 0 s.operands s.waiting = .ok (ops, .opening b start :: ws)
  /-- where everything is completed, a single operand is left -/
  ends : s.expectsOperand = false → ∀ ops, reduceAll s.operands s.waiting = .ok ops → ∃ e, ops = [e]

theorem Reduces.trans {operands ops ops' : List Expr} {waiting ws ws' : List Pending}
    (h : Reduces operands waiting ops ws) (h' : Reduces ops ws ops' ws') :
    Reduces operands waiting ops' ws' := by
  induction h' with
  | refl => exact h
  | complete _ hc ih => exact ih.complete hc

/-- The operators that bind tightly are completed one after the other. -/
theorem reduces_reduceWhile {level : Nat} {operands ops : List Expr} {waiting ws : List Pending}
    (h : reduceWhile level operands waiting = .ok (ops, ws)) : Reduces operands waiting ops ws := by
  induction waiting generalizing operands with
  | nil =>
      cases h
      exact .refl
  | cons p waiting ih =>
      simp only [reduceWhile] at h
      split at h
      · cases h
        exact .refl
      · split at h
        · obtain ⟨ops₁, hp, hrest⟩ : ∃ ops₁, p.complete operands = .ok ops₁ ∧
              reduceWhile level ops₁ waiting = .ok (ops, ws) := by
            cases hp : p.complete operands with
            | error err =>
                rw [hp] at h
                cases h
            | ok ops₁ =>
                rw [hp] at h
                exact ⟨ops₁, rfl, h⟩
          exact (Reduces.complete .refl hp).trans (ih hrest)
        · cases h
          exact .refl

theorem countP_isOpening (k : List Frame) :
    (k.map Frame.pending).countP Pending.isOpening = openBrackets k := by
  induction k with
  | nil => rfl
  | cons f k ih =>
      rw [List.map_cons, List.countP_cons, ih, openBrackets, Nat.add_comm]
      cases f <;> rfl

theorem length_lefts (k : List Frame) :
    (k.flatMap Frame.lefts).length = (k.map Frame.pending).countP Pending.isBinary := by
  induction k with
  | nil => rfl
  | cons f k ih =>
      rw [List.flatMap_cons, List.length_append, ih, List.map_cons, List.countP_cons, Nat.add_comm]
      cases f <;> rfl

/-- Where a bracket is open, completing operators comes to one. -/
theorem unwind_opening (e : Expr) {k : List Frame} (h : 0 < openBrackets k) :
    ∃ b start k', (unwind 0 e k).2 = .opening b start :: k' := by
  rcases unwind_zero e k with h0 | h0
  · rw [← brackets_unwind 0 e k, h0] at h
    exact absurd h (Nat.lt_irrefl 0)
  · exact h0

/-- A waiting operator finds the operands of its call. -/
theorem complete_pending (e : Expr) (f : Frame) (k : List Frame)
    (hf : f.pending.isOpening = false) :
    ∃ x, f.pending.complete (e :: (f :: k).flatMap Frame.lefts) =
      .ok (x :: k.flatMap Frame.lefts) := by
  cases f with
  | binary left op span => exact ⟨_, rfl⟩
  | unary op start => exact ⟨_, rfl⟩
  | opening b start => cases hf

/-- **Completing operators of pending calls leaves pending calls.** -/
theorem Reduces.calls {e : Expr} {k : List Frame} {ops : List Expr} {ws : List Pending}
    (h : Reduces (e :: k.flatMap Frame.lefts) (k.map Frame.pending) ops ws) :
    ∃ (x : Expr) (k' : List Frame), ops = x :: k'.flatMap Frame.lefts ∧
      ws = k'.map Frame.pending := by
  induction h with
  | refl => exact ⟨e, k, rfl, rfl⟩
  | complete _ hp ih =>
      obtain ⟨x, k', rfl, hws⟩ := ih
      obtain ⟨f, k₁, rfl, rfl, rfl⟩ := List.map_eq_cons_iff.1 hws.symm
      cases hf : f.pending.isOpening with
      | true =>
          cases f with
          | opening b start => cases hp
          | binary | unary => cases hf
      | false =>
          obtain ⟨y, hy⟩ := complete_pending x f k₁ hf
          rw [hy] at hp
          cases hp
          exact ⟨y, k₁, rfl, rfl⟩

theorem stackedCalls_operand_balanced (k : List Frame) : (stackedCalls k [] true).Balanced where
  brackets := countP_isOpening k
  operands := length_lefts k
  completes h := by cases h
  pops h := by cases h
  pushes h := by cases h
  closes h := by cases h
  ends h := by cases h

theorem stackedCalls_operator_balanced (k : List Frame) (e : Expr) :
    (stackedCalls k [e] false).Balanced where
  brackets := countP_isOpening k
  operands := congrArg (· + 1) (length_lefts k)
  completes _ ops p ws h hp := by
    obtain ⟨x, k', rfl, hws⟩ := Reduces.calls h
    obtain ⟨f, k₁, rfl, rfl, rfl⟩ := List.map_eq_cons_iff.1 hws.symm
    obtain ⟨y, hy⟩ := complete_pending x f k₁ hp
    exact ⟨_, hy⟩
  pops _ ops ws h span := by
    obtain ⟨x, k', rfl, rfl⟩ := Reduces.calls h
    refine ⟨x, _, rfl, fun hnil => ?_⟩
    rw [List.map_eq_nil_iff.1 hnil]
    rfl
  pushes _ level :=
    ⟨_, _, reduceWhile_frames level e k, reduces_reduceWhile (reduceWhile_frames level e k)⟩
  closes _ hdepth := by
    obtain ⟨b, start, k', h0⟩ := unwind_opening e (show 0 < openBrackets k from hdepth)
    have hred := reduceWhile_frames 0 e k
    rw [h0] at hred
    exact ⟨_, b, start, _, hred⟩
  ends _ ops h := by
    simp only [stackedCalls, List.singleton_append] at h
    rw [reduceAll_frames] at h
    rcases unwind_zero e k with h0 | ⟨b, start, k', h0⟩
    · rw [h0] at h
      cases h
      exact ⟨_, rfl⟩
    · rw [h0] at h
      cases h

/-- **Stacks of pending calls are in balance.** -/
theorem Stacks.InCalls.balanced {s : Stacks} (h : s.InCalls) : s.Balanced := by
  cases h with
  | operand k => exact stackedCalls_operand_balanced k
  | operator k e => exact stackedCalls_operator_balanced k e

/-! ### Brackets in what was read -/

/-- The token that opens a bracket. -/
def Bracket.opening : Bracket → Token
  | .round => .mark .lparen
  | .square => .mark .lbracket

/-- Each bracket among the tokens is closed by one of its shape, and each closes one. -/
inductive Matched : List Token → Prop
  | nil : Matched []
  | other {t : Token} {ts : List Token} : t.isBracket = false → Matched ts → Matched (t :: ts)
  | group (b : Bracket) {inside rest : List Token} : Matched inside → Matched rest →
      Matched (b.opening :: (inside ++ b.closing :: rest))

theorem Matched.append {ts us : List Token} (h : Matched ts) (h' : Matched us) :
    Matched (ts ++ us) := by
  induction h with
  | nil => exact h'
  | other ht _ ih => exact .other ht ih
  | group b hinside _ _ ih =>
      rw [List.cons_append, List.append_assoc, List.cons_append]
      exact .group b hinside ih

/-- The brackets that the tokens open are those of the pending calls, and all others between them are
balanced. -/
inductive Opened : List Spanned → List Frame → Prop
  | nil (run : List Spanned) : Opened run []
  | operator {run : List Spanned} {f : Frame} {k : List Frame} : f.pending.isOpening = false →
      Opened run k → Opened run (f :: k)
  | opening {run inside : List Spanned} {k : List Frame} {b : Bracket} {t : Spanned} :
      Opened run k → t.token = b.opening → Matched (inside.map Spanned.token) →
      Opened (run ++ t :: inside) (.opening b t.span.start :: k)

/-- Balanced tokens open nothing. -/
theorem Opened.append {run more : List Spanned} {k : List Frame} (h : Opened run k)
    (hmore : Matched (more.map Spanned.token)) : Opened (run ++ more) k := by
  induction h with
  | nil run => exact .nil _
  | operator hf _ ih => exact .operator hf ih
  | opening hrun ht hinside _ =>
      rw [List.append_assoc, List.cons_append]
      refine .opening hrun ht ?_
      rw [List.map_append]
      exact hinside.append hmore

theorem Opened.token {run : List Spanned} {k : List Frame} {t : Spanned} (h : Opened run k)
    (ht : t.token.isBracket = false) : Opened (run ++ [t]) k :=
  h.append (.other ht .nil)

/-- Completing operators leaves the brackets as they are. -/
theorem Opened.unwind {run : List Spanned} {k : List Frame} (h : Opened run k) (level : Nat)
    (e : Expr) : Opened run (unwind level e k).2 := by
  induction h generalizing e with
  | nil run => exact .nil run
  | opening hrun ht hinside _ => exact .opening hrun ht hinside
  | @operator run f k hf hrun ih =>
      cases f with
      | binary left op span =>
          simp only [Climb.unwind]
          split
          · exact ih _
          · exact .operator hf hrun
      | unary op start =>
          simp only [Climb.unwind]
          split
          · exact ih _
          · exact .operator hf hrun
      | opening b start => cases hf

/-- The bracket that is open last, and what was read behind it. -/
theorem Opened.last {run : List Spanned} {b : Bracket} {start : Nat} {k : List Frame}
    (h : Opened run (.opening b start :: k)) :
    ∃ before t inside, run = before ++ t :: inside ∧ t.token = b.opening ∧ t.span.start = start ∧
      Matched (inside.map Spanned.token) ∧ Opened before k := by
  cases h with
  | operator hf _ => cases hf
  | opening hrun ht hinside => exact ⟨_, _, _, rfl, ht, rfl, hinside, hrun⟩

/-- A closing bracket of its shape closes the bracket that is open last. -/
theorem Opened.close {run : List Spanned} {b : Bracket} {start : Nat} {k : List Frame} {t : Spanned}
    (h : Opened run (.opening b start :: k)) (ht : t.token = b.closing) :
    Opened (run ++ [t]) k := by
  obtain ⟨before, o, inside, rfl, ho, -, hinside, hbefore⟩ := h.last
  rw [List.append_assoc, List.cons_append]
  refine hbefore.append ?_
  rw [List.map_cons, List.map_append, List.map_cons, ho, ht]
  exact .group b hinside .nil

/-! ### One token -/

/-- The stacks stand for pending calls whose brackets are those that are open in what was read.  Only
before the first token do they wait for nothing but an operand. -/
inductive Stacks.Holds (run : List Spanned) : Stacks → Prop
  | operand (k : List Frame) : Opened run k → (k = [] ↔ run = []) →
      Holds run (stackedCalls k [] true)
  | operator (k : List Frame) (e : Expr) : Opened run k → Holds run (stackedCalls k [e] false)

theorem Stacks.Holds.inCalls {run : List Spanned} {s : Stacks} (h : s.Holds run) : s.InCalls := by
  cases h with
  | operand k _ _ => exact .operand k
  | operator k e _ => exact .operator k e

/-- What an operand starts with, by the token. -/
theorem bracket_of_lead {c : Cursor} {l : Lead} (h : lead? c = some l) :
    match l with
    | .opening b => c.current = b.opening
    | .atom _ | .unary _ => c.current.isBracket = false := by
  unfold lead? at h
  split at h <;> rename_i hc
  case h_1 | h_2 =>
      obtain ⟨x, -, rfl⟩ := Option.map_eq_some_iff.1 h
      simp [hc, Token.isBracket]
  case h_5 => split at h <;> cases h <;> simp [hc, Token.isBracket]
  all_goals
      cases h
      try simp [hc, Token.isBracket, Bracket.opening]

/-- A unary operator is a new call. -/
theorem pushUnary_frames (k : List Frame) (op : UnaryOp) (start : Nat) :
    (stackedCalls k [] true).pushUnary op start = stackedCalls (.unary op start :: k) [] true := by
  simp [stackedCalls, Stacks.pushUnary, Frame.lefts, Frame.pending, openBrackets, Frame.brackets]

/-- An opening bracket is a new call. -/
theorem openBracket_frames (k : List Frame) (b : Bracket) (start : Nat) :
    (stackedCalls k [] true).openBracket b start = stackedCalls (.opening b start :: k) [] true := by
  simp [stackedCalls, Stacks.openBracket, Frame.lefts, Frame.pending, openBrackets, Frame.brackets,
    Nat.add_comm]

/-- Closing a bracket where one is open: it is the bracket of the innermost call that has one. -/
theorem closeBracket_frames {e : Expr} {k k' : List Frame} {b b' : Bracket} {start : Nat}
    (h : (unwind 0 e k).2 = .opening b' start :: k') (stop : Nat) :
    (stackedCalls k [e] false).closeBracket b stop =
      if b' = b then .ok (stackedCalls k' [.group (unwind 0 e k).1 ⟨start, stop⟩] false)
      else .error ⟨.mismatchedBrackets, ⟨start, stop⟩⟩ := by
  have hsum := brackets_unwind 0 e k
  rw [h] at hsum
  simp only [openBrackets, Frame.brackets] at hsum
  simp only [Stacks.closeBracket, closeGroup, stackedCalls, List.singleton_append,
    reduceWhile_frames, h, ← hsum]
  by_cases hb : b' = b
  · simp [hb, Frame.pending, Frame.lefts, popOperand, bind, Except.bind, pure, Except.pure]
  · simp [hb, Frame.pending, bind, Except.bind]

/-- What a token behind an operand does to the stacks: an operator is a new call, a closing bracket ends
the innermost call that has one, and at any other token the expression ends. -/
theorem shift_operator_cases (c : Cursor) (e : Expr) (k : List Frame) :
    (∃ op, c.current = .op op ∧
      (stackedCalls k [e] false).shift c =
        .ok (some (stackedCalls (.binary (unwind op.precedence e k).1 op c.span ::
          (unwind op.precedence e k).2) [] true))) ∨
    (∃ (b b' : Bracket) (start : Nat) (k' : List Frame), c.current = b.closing ∧
      (unwind 0 e k).2 = .opening b' start :: k' ∧
      (stackedCalls k [e] false).shift c =
        if b' = b then
          .ok (some (stackedCalls k' [.group (unwind 0 e k).1 ⟨start, c.span.stop⟩] false))
        else .error ⟨.mismatchedBrackets, ⟨start, c.span.stop⟩⟩) ∨
    (∀ op, c.current ≠ .op op) ∧ (∀ b : Bracket, c.current = b.closing → ¬0 < openBrackets k) ∧
      (stackedCalls k [e] false).shift c = .ok none := by
  by_cases hop : ∃ op, c.current = .op op
  · obtain ⟨op, hop⟩ := hop
    exact .inl ⟨op, hop, shift_op hop e k⟩
  have hop' : ∀ op, c.current ≠ .op op := fun op h => hop ⟨op, h⟩
  by_cases hb : ∃ b : Bracket, c.current = b.closing
  · obtain ⟨b, hb⟩ := hb
    have hshift := shift_closing hb e k
    by_cases hpos : 0 < openBrackets k
    · obtain ⟨b', start, k', h0⟩ := unwind_opening e hpos
      refine .inr (.inl ⟨b, b', start, k', hb, h0, ?_⟩)
      rw [hshift, if_pos hpos, closeBracket_frames h0]
      split <;> rfl
    · rw [if_neg hpos] at hshift
      exact .inr (.inr ⟨hop', fun _ _ => hpos, hshift⟩)
  · have hb' : ∀ b : Bracket, c.current ≠ b.closing := fun b h => hb ⟨b, h⟩
    exact .inr (.inr ⟨hop', fun b h => absurd h (hb' b), shift_other hop' hb' e k⟩)

/-- One token where an operand is expected. -/
theorem holds_of_shift_operand {run rest : List Spanned} {k : List Frame} {s' : Stacks} {t : Spanned}
    {lastEnd : Nat} (hopen : Opened run k)
    (hshift : (stackedCalls k [] true).shift ⟨t :: rest, lastEnd⟩ = .ok (some s')) :
    s'.Holds (run ++ [t]) := by
  change some <$> (stackedCalls k [] true).shiftOperand ⟨t :: rest, lastEnd⟩ = _ at hshift
  have hlead := shiftOperand_lead (stackedCalls k [] true) ⟨t :: rest, lastEnd⟩
  cases hl : lead? ⟨t :: rest, lastEnd⟩ with
  | none =>
      rw [hl] at hlead
      obtain ⟨err, herr⟩ := hlead
      rw [herr] at hshift
      cases hshift
  | some l =>
      have hbracket := bracket_of_lead hl
      rw [hl] at hlead
      cases l with
      | atom e =>
          rw [show _ = _ from hlead] at hshift
          cases hshift
          exact .operator k e (hopen.token hbracket)
      | unary op =>
          rw [show _ = _ from hlead, pushUnary_frames] at hshift
          cases hshift
          exact .operand _ (.operator rfl (hopen.token hbracket)) (by simp)
      | opening b =>
          rw [show _ = _ from hlead, openBracket_frames] at hshift
          cases hshift
          exact .operand _ (.opening hopen hbracket .nil) (by simp)

/-- One token behind an operand. -/
theorem holds_of_shift_operator {run rest : List Spanned} {k : List Frame} {e : Expr} {s' : Stacks}
    {t : Spanned} {lastEnd : Nat} (hopen : Opened run k)
    (hshift : (stackedCalls k [e] false).shift ⟨t :: rest, lastEnd⟩ = .ok (some s')) :
    s'.Holds (run ++ [t]) := by
  rcases shift_operator_cases ⟨t :: rest, lastEnd⟩ e k with
    ⟨op, hop, h⟩ | ⟨b, b', start, k', hb, h0, h⟩ | ⟨-, -, h⟩
  · rw [h] at hshift
    cases hshift
    have hop : t.token = .op op := hop
    exact .operand _ (.operator rfl ((hopen.unwind op.precedence e).token (by rw [hop]; rfl))) (by simp)
  · rw [h] at hshift
    split at hshift
    · rename_i hbb
      cases hshift
      have hlast := hopen.unwind 0 e
      rw [h0] at hlast
      exact .operator k' _ (hlast.close (hbb ▸ hb))
    · cases hshift
  · rw [h] at hshift
    cases hshift

/-- **One token keeps the stacks in step with what was read.** -/
theorem Stacks.Holds.shift {run rest : List Spanned} {s s' : Stacks} {t : Spanned} {lastEnd : Nat}
    (h : s.Holds run) (hshift : s.shift ⟨t :: rest, lastEnd⟩ = .ok (some s')) :
    s'.Holds (run ++ [t]) := by
  cases h with
  | operand k hopen _ => exact holds_of_shift_operand hopen hshift
  | operator k e hopen => exact holds_of_shift_operator hopen hshift

/-- At every turn of the loop the stacks hold the brackets of what was read. -/
theorem Stacks.Visits.holds {c d : Cursor} {s : Stacks} (h : s.Visits c d) :
    ∃ run, Takes c run d ∧ s.Holds run := by
  induction h with
  | start => exact ⟨[], ⟨rfl, rfl⟩, .operand [] (.nil []) (by simp)⟩
  | @next s s' t rest lastEnd _ hshift ih =>
      obtain ⟨run, htakes, hholds⟩ := ih
      exact ⟨run ++ [t], htakes.trans ⟨rfl, rfl⟩, hholds.shift hshift⟩

/-! ### The errors -/

/-- What can be wrong with an expression that is read from `c`, where the reader stops at `d`. -/
inductive ExpressionFault (c d : Cursor) : SyntaxError → Prop
  /-- nothing was read -/
  | empty : d = c → ExpressionFault c d ⟨.emptyExpression, d.span⟩
  /-- something was read, and the next token is not the operand that is expected -/
  | value {t : Spanned} {run : List Spanned} : Takes c (t :: run) d →
      ExpressionFault c d ⟨.expectedValue d.current, d.span⟩
  /-- a bracket is open where the expression ends -/
  | unclosed {before inside : List Spanned} {t : Spanned} {b : Bracket} :
      Takes c (before ++ t :: inside) d → t.token = b.opening →
      Matched (inside.map Spanned.token) → (∀ b' : Bracket, d.current ≠ b'.closing) →
      (∀ op, d.current ≠ .op op) →
      ExpressionFault c d ⟨.mismatchedBrackets, ⟨t.span.start, t.span.start + 1⟩⟩
  /-- a bracket is closed by one of the other shape -/
  | crossed {before inside : List Spanned} {t : Spanned} {b b' : Bracket} :
      Takes c (before ++ t :: inside) d → t.token = b.opening →
      Matched (inside.map Spanned.token) → d.current = b'.closing → b' ≠ b →
      ExpressionFault c d ⟨.mismatchedBrackets, ⟨t.span.start, d.span.stop⟩⟩

/-- What an error says where an operand is expected. -/
theorem Stacks.shiftOperand_fault {s : Stacks} {d : Cursor} {err : SyntaxError}
    (h : s.shiftOperand d = .error err) (hread : d.current.readable = true) :
    err = if s.operands.isEmpty && s.waiting.isEmpty then ⟨.emptyExpression, d.span⟩
      else ⟨.expectedValue d.current, d.span⟩ := by
  unfold Stacks.shiftOperand at h
  split at h <;> repeat' split at h
  all_goals
      cases h
      try simp_all [Token.readable]

/-- The errors where an operand is expected: there is none. -/
theorem fault_of_operand {c d : Cursor} {run : List Spanned} {k : List Frame} {err : SyntaxError}
    (hk : k = [] ↔ run = []) (htakes : Takes c run d) (hread : d.current.readable = true)
    (herr : (stackedCalls k [] true).shiftOperand d = .error err) : ExpressionFault c d err := by
  rw [Stacks.shiftOperand_fault herr hread]
  cases run with
  | nil =>
      rw [hk.2 rfl]
      exact .empty (Cursor.eq_of_upTo ⟨[], htakes⟩ (Cursor.upTo_of_takes htakes)).symm
  | cons t run =>
      cases k with
      | nil => cases hk.1 rfl
      | cons f k =>
          have hempty : ((stackedCalls (f :: k) [] true).operands.isEmpty &&
              (stackedCalls (f :: k) [] true).waiting.isEmpty) = false := by
            rw [Bool.and_eq_false_iff]
            exact .inr rfl
          rw [hempty]
          exact .value htakes

/-- The error behind an operand that another token brings: it closes a bracket of the other shape. -/
theorem fault_of_operator {c d : Cursor} {run : List Spanned} {k : List Frame} {e : Expr}
    {err : SyntaxError} (hopen : Opened run k) (htakes : Takes c run d)
    (herr : (stackedCalls k [e] false).shift d = .error err) : ExpressionFault c d err := by
  rcases shift_operator_cases d e k with ⟨op, -, h⟩ | ⟨b, b', start, k', hb, h0, h⟩ | ⟨-, -, h⟩
  · rw [h] at herr
    cases herr
  · rw [h] at herr
    split at herr
    · cases herr
    · rename_i hbb
      cases herr
      have hlast := hopen.unwind 0 e
      rw [h0] at hlast
      obtain ⟨before, t, inside, rfl, ht, rfl, hinside, -⟩ := hlast.last
      exact .crossed htakes ht hinside hb fun hb' => hbb hb'.symm
  · rw [h] at herr
    cases herr

/-- The error where the expression ends: a bracket is open. -/
theorem fault_of_finish {c d : Cursor} {run : List Spanned} {k : List Frame} {e : Expr}
    {err : SyntaxError} (hopen : Opened run k) (htakes : Takes c run d)
    (hshift : (stackedCalls k [e] false).shift d = .ok none)
    (herr : (stackedCalls k [e] false).finish d.span = .error err) : ExpressionFault c d err := by
  simp only [Stacks.finish, stackedCalls, List.singleton_append] at herr
  rw [reduceAll_frames] at herr
  rcases unwind_zero e k with h0 | ⟨b, start, k', h0⟩
  · rw [h0] at herr
    cases herr
  · have hlast := hopen.unwind 0 e
    rw [h0] at herr hlast
    cases herr
    obtain ⟨before, t, inside, rfl, ht, rfl, hinside, -⟩ := hlast.last
    have hpos := brackets_pos_of_unwind h0
    -- the token is neither an operator nor a closing bracket, for it does not belong to the expression
    rcases shift_operator_cases d e k with ⟨op, -, h⟩ | ⟨b₁, b', start', k₁, -, -, h⟩ | ⟨hop, hb, -⟩
    · cases h.symm.trans hshift
    · rw [h] at hshift
      split at hshift <;> cases hshift
    · exact .unclosed htakes ht hinside (fun b' hb' => hb b' hb' hpos) hop

/-- **The errors of the reader are those of the text.** -/
theorem Stacks.Holds.fault {c d : Cursor} {run : List Spanned} {s : Stacks} {err : SyntaxError}
    (h : s.Holds run) (htakes : Takes c run d) (hread : d.current.readable = true)
    (herr : s.shift d = .error err ∨ s.shift d = .ok none ∧ s.finish d.span = .error err) :
    ExpressionFault c d err := by
  cases h with
  | operand k hopen hk =>
      have hshift : (stackedCalls k [] true).shift d =
          some <$> (stackedCalls k [] true).shiftOperand d := rfl
      cases hs : (stackedCalls k [] true).shiftOperand d with
      | ok s' =>
          rw [hshift, hs] at herr
          rcases herr with herr | ⟨herr, -⟩ <;> cases herr
      | error err' =>
          rw [hshift, hs] at herr
          rcases herr with herr | ⟨herr, -⟩ <;> cases herr
          exact fault_of_operand hk htakes hread hs
  | operator k e hopen =>
      rcases herr with herr | ⟨hshift, herr⟩
      · exact fault_of_operator hopen htakes herr
      · exact fault_of_finish hopen htakes hshift herr

/-- The reader says that an expression is empty where it has read nothing. -/
theorem ExpressionFault.empty_iff {c d : Cursor} {err : SyntaxError} (h : ExpressionFault c d err) :
    err.fault = .emptyExpression ↔ d = c := by
  have htaken : ∀ (before : List Spanned) {t : Spanned} {inside : List Spanned},
      Takes c (before ++ t :: inside) d → d ≠ c := by
    rintro before t inside htakes rfl
    have hlength := congrArg List.length htakes.tokens
    simp only [List.length_append, List.length_cons] at hlength
    omega
  cases h with
  | empty hd => exact ⟨fun _ => hd, fun _ => rfl⟩
  | value htakes => exact ⟨nofun, fun hd => absurd hd (htaken [] htakes)⟩
  | unclosed htakes | crossed htakes => exact ⟨nofun, fun hd => absurd hd (htaken _ htakes)⟩

/-- **Every turn of the loop that reads an expression finds its stacks in balance**: as many brackets
wait as the depth says, and as many operands are there as binary operators wait, and one more where no
operand is expected.  So no operand is ever missing or left over, and no bracket is closed where none is
open; and the reading can only fail because nothing was read, because the next token is not the operand
that is expected, or because of a bracket that is not closed or is closed by one of the other shape. -/
theorem expression_stacks_balanced {text : String} {tokens front : List Spanned} {c : Cursor}
    (hlex : tokenize text = .ok tokens) (hc : tokens = front ++ c.tokens) :
    (∀ s d, Stacks.Visits c s d →
      Parse.expression c = s.read d.tokens d.lastEnd ∧ s.Balanced) ∧
    ∀ err d, Parse.expression c = .error err d →
      ExpressionFault c d err ∧ (err.fault = .emptyExpression ↔ d = c) := by
  refine ⟨fun s d hs => ?_, fun err d herr => ?_⟩
  · obtain ⟨run, -, hholds⟩ := hs.holds
    exact ⟨hs.read, hholds.inCalls.balanced⟩
  · obtain ⟨s, hs, hfault⟩ := Stacks.Visits.of_error (.start (c := c)) herr
    obtain ⟨run, htakes, hholds⟩ := hs.holds
    have hread : d.current.readable = true := by
      cases hd : d.tokens with
      | nil =>
          rw [Cursor.current, hd]
          rfl
      | cons t rest =>
          rw [Cursor.current, hd]
          refine (tokens_of_tokenize hlex).2 t ?_
          rw [hc, htakes.tokens, hd]
          simp
    have h := hholds.fault htakes hread hfault
    exact ⟨h, h.empty_iff⟩

/-- A square bracket inside a round one is closed by a round one. -/
theorem expression_stacks_balanced_crossed :
    ∃ tokens err d, tokenize "(1 + [x * 2) - 3]" = .ok tokens ∧
      Parse.expression (.start tokens) = .error err d ∧
      (∀ s e, Stacks.Visits (.start tokens) s e → s.Balanced) ∧
      ExpressionFault (.start tokens) d err := by
  have hfails : ((tokenize "(1 + [x * 2) - 3]").toOption.any fun tokens =>
      (result? (Parse.expression (.start tokens))).isNone) = true := by decide +kernel
  cases hlex : tokenize "(1 + [x * 2) - 3]" with
  | error e =>
      rw [hlex] at hfails
      cases hfails
  | ok tokens =>
      rw [hlex] at hfails
      have hstart : tokens = [] ++ (Cursor.start tokens).tokens := rfl
      obtain ⟨hbalanced, hfault⟩ := expression_stacks_balanced hlex hstart
      cases herr : Parse.expression (.start tokens) with
      | ok e d =>
          change (result? (Parse.expression (.start tokens))).isNone = true at hfails
          rw [herr] at hfails
          cases hfails
      | error err d =>
          exact ⟨tokens, err, d, rfl, herr, fun s e hs => (hbalanced s e hs).2, (hfault err d herr).1⟩

end BisayaLang
