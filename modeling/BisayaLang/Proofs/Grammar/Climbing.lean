/-
**Precedence climbing.**

`Parse.expression` reads an expression with two stacks and never calls itself.  The classical other way
is recursive: to read what binds tighter than a level, read an operand, and then, as long as the next
token is a binary operator above the level, the operator and what binds tighter than it.  Here the
recursive reader is defined, and shown to be the same as the one with the stacks: it accepts the same
tokens, makes the same tree of them with the same spans, and stops at the same place.

The operator stack holds what the recursive reader keeps in its pending calls.  A waiting operator with
its left operand, if it has one, is a *frame*; a list of frames stands for the stacks, and `resume` says
what the pending calls do when the innermost of them gets its first operand.  One token does to the
stacks what it does to the pending calls, which is shown token by token.

Main definitions:

* `BisayaLang.Lead`, `BisayaLang.lead?` — what a token means where an operand is expected;
* `BisayaLang.Climb.operand`, `BisayaLang.Climb.climb`, `BisayaLang.Climb.extend` — the recursive reader;
* `BisayaLang.Climb.Frame`, `BisayaLang.Climb.resume` — a pending call, and what is left to be done
  by a list of them.

Main results:

* `BisayaLang.Climb.agrees` — reading with stacks is resuming the calls that the stacks stand for;
* `BisayaLang.Climb.result?_expression` — **the reader with stacks is the recursive reader**.
-/

import BisayaLang.Proofs.Grammar.Lookahead

set_option relaxedAutoImplicit false
set_option autoImplicit false

namespace BisayaLang

/-! ### The first token of an operand -/

/-- What a token means where an operand is expected. -/
inductive Lead where
  /-- the token is an operand -/
  | atom (e : Expr)
  /-- an operator before its operand -/
  | unary (op : UnaryOp)
  /-- a bracket around an expression -/
  | opening (b : Bracket)

/-- What the next token means where an operand is expected, if it may stand there. -/
def lead? (c : Cursor) : Option Lead :=
  match c.current with
  | .integer lexeme | .decimal lexeme =>
      (Number.readFloat? lexeme.toList).map fun x => .atom (.number x lexeme c.span)
  | .text content => some (.atom (.text content c.span))
  | .oo => some (.atom (.bool true c.span))
  | .dili => if Stacks.negates c then some (.unary .dili) else some (.atom (.bool false c.span))
  | .op (.arithmetic .sub) => some (.unary .minus)
  | .name text => some (.atom (.var ⟨text, c.span⟩))
  | .mark .lparen => some (.opening .round)
  | .mark .lbracket => some (.opening .square)
  | _ => none

theorem lead?_eof {c : Cursor} (h : c.current = .eof) : lead? c = none := by
  simp only [lead?, h]

/-- The end is no operand, so that a token that leads one can be stepped over. -/
theorem length_step_lt_of_lead {c : Cursor} {l : Lead} (h : lead? c = some l) :
    c.step.tokens.length < c.tokens.length := by
  refine Cursor.length_step_lt fun he => ?_
  rw [lead?_eof he] at h
  exact absurd h (by simp)

namespace Climb

/-! ### The recursive reader -/

/-- The cursors that have fewer tokens left than `c`. -/
abbrev Later (c : Cursor) := { d : Cursor // d.tokens.length < c.tokens.length }

/-- The cursors that do not have more tokens left than `c`. -/
abbrev NotEarlier (c : Cursor) := { d : Cursor // d.tokens.length ≤ c.tokens.length }

theorem length_step_le (c : Cursor) : c.step.tokens.length ≤ c.tokens.length := by
  rcases c with ⟨_ | ⟨t, rest⟩, lastEnd⟩
  · exact Nat.le_refl _
  · exact Nat.le_succ _

mutual

/-- Reads an operand: a token that is one, a unary operator and what binds tighter than it, or a pair
of brackets around any expression. -/
def operand (c : Cursor) : Option (Expr × Later c) :=
  match h : lead? c with
  | none => none
  | some (.atom e) => some (e, ⟨c.step, length_step_lt_of_lead h⟩)
  | some (.unary op) =>
      have hs := length_step_lt_of_lead h
      (climb op.precedence c.step).bind fun (e, d) =>
        some (.unary op e ⟨c.span.start, e.span.stop⟩, ⟨d.val, Nat.lt_trans d.property hs⟩)
  | some (.opening b) =>
      have hs := length_step_lt_of_lead h
      (climb 0 c.step).bind fun (e, d) =>
        if d.val.current = b.closing then
          some (.group e ⟨c.span.start, d.val.span.stop⟩,
            ⟨d.val.step, Nat.lt_trans (Nat.lt_of_le_of_lt (length_step_le d.val) d.property) hs⟩)
        else none
termination_by (c.tokens.length, 0)

/-- Reads an expression of operators that bind tighter than `min`. -/
def climb (min : Nat) (c : Cursor) : Option (Expr × Later c) :=
  (operand c).bind fun (e, d) =>
    (extend min e d.val).bind fun (e, d') =>
      some (e, ⟨d'.val, Nat.lt_of_le_of_lt d'.property d.property⟩)
termination_by (c.tokens.length, 1)

/-- Goes on behind the left operand as long as an operator follows that binds tighter than `min`. -/
def extend (min : Nat) (left : Expr) (c : Cursor) : Option (Expr × NotEarlier c) :=
  match h : c.current with
  | .op op =>
      if min < op.precedence then
        have hs : c.step.tokens.length < c.tokens.length := Cursor.length_step_lt (by simp [h])
        (climb op.precedence c.step).bind fun (right, d) =>
          (extend min (.binary op left right (left.span.cover right.span)) d.val).bind
            fun (e, d') =>
              some (e, ⟨d'.val, Nat.le_trans d'.property (Nat.le_of_lt (Nat.lt_trans d.property hs))⟩)
      else some (left, ⟨c, Nat.le_refl _⟩)
  | _ => some (left, ⟨c, Nat.le_refl _⟩)
termination_by (c.tokens.length, 0)

end

/-! ### The equations of the recursive reader -/

/-- Forgets how many tokens are left behind an expression. -/
def forget {p : Cursor → Prop} (x : Expr × { d : Cursor // p d }) : Expr × Cursor := (x.1, x.2.val)

/-- Reads an operand; see `operand`. -/
def operand? (c : Cursor) : Option (Expr × Cursor) := (operand c).map forget

/-- Reads an expression of operators that bind tighter than `min`; see `climb`. -/
def climb? (min : Nat) (c : Cursor) : Option (Expr × Cursor) := (climb min c).map forget

/-- Goes on behind a left operand; see `extend`. -/
def extend? (min : Nat) (left : Expr) (c : Cursor) : Option (Expr × Cursor) :=
  (extend min left c).map forget

/-- The next token is no operator that binds tighter than `min`. -/
def Stops (min : Nat) (c : Cursor) : Prop := ∀ op, c.current = .op op → op.precedence ≤ min

theorem operand?_none {c : Cursor} (h : lead? c = none) : operand? c = none := by
  unfold operand?
  rw [operand]
  split <;> simp_all

theorem operand?_atom {c : Cursor} {e : Expr} (h : lead? c = some (.atom e)) :
    operand? c = some (e, c.step) := by
  unfold operand?
  rw [operand]
  split <;> simp_all [forget]

theorem operand?_unary {c : Cursor} {op : UnaryOp} (h : lead? c = some (.unary op)) :
    operand? c = (climb? op.precedence c.step).bind fun (e, d) =>
      some (.unary op e ⟨c.span.start, e.span.stop⟩, d) := by
  unfold operand? climb?
  rw [operand]
  split <;> rename_i h' <;> simp only [h, reduceCtorEq, Option.some.injEq, Lead.unary.injEq] at h'
  subst h'
  cases climb op.precedence c.step <;> rfl

theorem operand?_opening {c : Cursor} {b : Bracket} (h : lead? c = some (.opening b)) :
    operand? c = (climb? 0 c.step).bind fun (e, d) =>
      if d.current = b.closing then some (.group e ⟨c.span.start, d.span.stop⟩, d.step)
      else none := by
  unfold operand? climb?
  rw [operand]
  split <;> rename_i h' <;> simp only [h, reduceCtorEq, Option.some.injEq, Lead.opening.injEq] at h'
  subst h'
  cases climb 0 c.step with
  | none => rfl
  | some x =>
      obtain ⟨e, d⟩ := x
      simp only [Option.bind_some, Option.map_some, forget]
      split <;> rfl

theorem climb?_eq (min : Nat) (c : Cursor) :
    climb? min c = (operand? c).bind fun (e, d) => extend? min e d := by
  unfold climb? operand? extend?
  rw [climb]
  cases operand c with
  | none => rfl
  | some x =>
      obtain ⟨e, d⟩ := x
      simp only [Option.bind_some, Option.map_some, forget]
      cases extend min e d.val <;> rfl

theorem extend?_op {min : Nat} {c : Cursor} {op : BinaryOp} (h : c.current = .op op)
    (hm : min < op.precedence) (left : Expr) :
    extend? min left c = (climb? op.precedence c.step).bind fun (right, d) =>
      extend? min (.binary op left right (left.span.cover right.span)) d := by
  unfold extend? climb?
  rw [extend]
  split
  · rename_i op' h'
    obtain rfl : op' = op := by
      rw [h] at h'
      exact (Token.op.inj h').symm
    rw [if_pos hm]
    cases climb op'.precedence c.step with
    | none => rfl
    | some x =>
        obtain ⟨r, d⟩ := x
        simp only [Option.bind_some, Option.map_some, forget]
        cases extend min (.binary op' left r (left.span.cover r.span)) d.val <;> rfl
  · rename_i h'
    exact absurd h (h' op)

theorem extend?_stop {min : Nat} {c : Cursor} (h : Stops min c) (left : Expr) :
    extend? min left c = some (left, c) := by
  unfold extend?
  rw [extend]
  split
  · rename_i op hop
    have hle := h op hop
    rw [if_neg (by omega)]
    rfl
  · rfl

/-! ### Pending calls -/

/-- A pending call: an operator that waits for its last operand, with the left one if it has one, or a
bracket that waits for what stands in it. -/
inductive Frame where
  | binary (left : Expr) (op : BinaryOp) (span : Span)
  | unary (op : UnaryOp) (start : Nat)
  | opening (b : Bracket) (start : Nat)

namespace Frame

/-- What of a frame lies on the operator stack. -/
def pending : Frame → Pending
  | .binary _ op span => .binary op span
  | .unary op start => .unary op start
  | .opening b start => .opening b start

/-- What of a frame lies on the operand stack. -/
def lefts : Frame → List Expr
  | .binary left _ _ => [left]
  | .unary .. | .opening .. => []

/-- The level above which the call reads on. -/
def level : Frame → Nat
  | .binary _ op _ => op.precedence
  | .unary op _ => op.precedence
  | .opening .. => 0

/-- One for a bracket, nothing for an operator. -/
def brackets : Frame → Nat
  | .opening .. => 1
  | .binary .. | .unary .. => 0

end Frame

/-- The brackets that a list of frames leaves open. -/
def openBrackets : List Frame → Nat
  | [] => 0
  | f :: k => f.brackets + openBrackets k

/-- The stacks that a list of frames stands for, with further operands on top. -/
def stackedCalls (k : List Frame) (top : List Expr) (expectsOperand : Bool) : Stacks :=
  ⟨top ++ k.flatMap Frame.lefts, k.map Frame.pending, openBrackets k, expectsOperand⟩

/-- What the pending calls make of the first operand of the innermost one. -/
def resume : List Frame → Expr → Cursor → Option (Expr × Cursor)
  | [], e, c => extend? 0 e c
  | .binary left op _ :: k, e, c =>
      (extend? op.precedence e c).bind fun (e, d) =>
        resume k (.binary op left e (left.span.cover e.span)) d
  | .unary op start :: k, e, c =>
      (extend? op.precedence e c).bind fun (e, d) => resume k (.unary op e ⟨start, e.span.stop⟩) d
  | .opening b start :: k, e, c =>
      (extend? 0 e c).bind fun (e, d) =>
        if d.current = b.closing then resume k (.group e ⟨start, d.span.stop⟩) d.step else none

/-- Completes the operators that bind at least as tightly as `level`, up to the innermost bracket. -/
def unwind (level : Nat) : Expr → List Frame → Expr × List Frame
  | e, [] => (e, [])
  | e, .binary left op span :: k =>
      if level ≤ op.precedence then unwind level (.binary op left e (left.span.cover e.span)) k
      else (e, .binary left op span :: k)
  | e, .unary op start :: k =>
      if level ≤ op.precedence then unwind level (.unary op e ⟨start, e.span.stop⟩) k
      else (e, .unary op start :: k)
  | e, .opening b start :: k => (e, .opening b start :: k)

/-- The level above which the innermost pending call reads on. -/
def innerLevel : List Frame → Nat
  | [] => 0
  | f :: _ => f.level

/-- Reducing the stacks is completing the pending calls. -/
theorem reduceWhile_frames (level : Nat) (e : Expr) (k : List Frame) :
    reduceWhile level (e :: k.flatMap Frame.lefts) (k.map Frame.pending) =
      .ok ((unwind level e k).1 :: (unwind level e k).2.flatMap Frame.lefts,
        (unwind level e k).2.map Frame.pending) := by
  induction k generalizing e with
  | nil => rfl
  | cons f k ih =>
      cases f with
      | binary left op span =>
          simp only [List.map_cons, Frame.pending, reduceWhile, Pending.precedence?, unwind]
          split
          · exact ih _
          · rfl
      | unary op start =>
          simp only [List.map_cons, Frame.pending, reduceWhile, Pending.precedence?, unwind]
          split
          · exact ih _
          · rfl
      | opening b start => rfl

/-- Completing everything starts with completing what stands in the innermost bracket. -/
theorem reduceAll_frames (e : Expr) (k : List Frame) :
    reduceAll (e :: k.flatMap Frame.lefts) (k.map Frame.pending) =
      reduceAll ((unwind 0 e k).1 :: (unwind 0 e k).2.flatMap Frame.lefts)
        ((unwind 0 e k).2.map Frame.pending) := by
  induction k generalizing e with
  | nil => rfl
  | cons f k ih =>
      cases f with
      | binary left op span => exact ih _
      | unary op start => exact ih _
      | opening b start => rfl

theorem brackets_unwind (level : Nat) (e : Expr) (k : List Frame) :
    openBrackets (unwind level e k).2 = openBrackets k := by
  induction k generalizing e with
  | nil => rfl
  | cons f k ih =>
      cases f with
      | binary left op span =>
          simp only [unwind]
          split
          · simp [ih, openBrackets, Frame.brackets]
          · rfl
      | unary op start =>
          simp only [unwind]
          split
          · simp [ih, openBrackets, Frame.brackets]
          · rfl
      | opening b start => rfl

/-- What is left after completing the calls at some level reads on below that level. -/
theorem innerLevel_unwind {level : Nat} (hl : 0 < level) (e : Expr) (k : List Frame) :
    innerLevel (unwind level e k).2 < level := by
  induction k generalizing e with
  | nil => exact hl
  | cons f k ih =>
      cases f with
      | binary left op span =>
          simp only [unwind]
          split
          · exact ih _
          · rename_i h
            exact Nat.lt_of_not_le h
      | unary op start =>
          simp only [unwind]
          split
          · exact ih _
          · rename_i h
            exact Nat.lt_of_not_le h
      | opening b start => exact hl

/-- At level zero only brackets are left, or nothing. -/
theorem unwind_zero (e : Expr) (k : List Frame) :
    (unwind 0 e k).2 = [] ∨ ∃ b start k', (unwind 0 e k).2 = .opening b start :: k' := by
  induction k generalizing e with
  | nil => exact .inl rfl
  | cons f k ih =>
      cases f with
      | binary left op span => exact ih _
      | unary op start => exact ih _
      | opening b start => exact .inr ⟨b, start, k, rfl⟩

/-- A token that extends nothing from some level on returns from the calls of that level. -/
theorem resume_unwind {level : Nat} {c : Cursor} (h : ∀ m, level ≤ m → Stops m c) (e : Expr)
    (k : List Frame) : resume k e c = resume (unwind level e k).2 (unwind level e k).1 c := by
  induction k generalizing e with
  | nil => rfl
  | cons f k ih =>
      cases f with
      | binary left op span =>
          simp only [unwind]
          split
          · rename_i hl
            rw [resume, extend?_stop (h _ hl)]
            exact ih _
          · rfl
      | unary op start =>
          simp only [unwind]
          split
          · rename_i hl
            rw [resume, extend?_stop (h _ hl)]
            exact ih _
          · rfl
      | opening b start => rfl

/-- An operator above the level of the innermost pending call becomes a pending call itself. -/
theorem resume_op {c : Cursor} {op : BinaryOp} (h : c.current = .op op) {k : List Frame}
    (hk : innerLevel k < op.precedence) (e : Expr) :
    resume k e c =
      (operand? c.step).bind fun (x, d) => resume (.binary e op c.span :: k) x d := by
  have hext : ∀ m, m < op.precedence → extend? m e c = (operand? c.step).bind fun (x, d) =>
      (extend? op.precedence x d).bind fun (r, d) =>
        extend? m (.binary op e r (e.span.cover r.span)) d := by
    intro m hm
    rw [extend?_op h hm, climb?_eq, Option.bind_assoc]
  cases k with
  | nil => exact hext 0 hk
  | cons f k =>
      cases f with
      | binary left op' span => simp only [resume, hext op'.precedence hk, Option.bind_assoc]
      | unary op' start => simp only [resume, hext op'.precedence hk, Option.bind_assoc]
      | opening b start => simp only [resume, hext 0 hk, Option.bind_assoc]

/-! ### One token -/

/-- What a token does to the stacks where an operand is expected is what it means there. -/
theorem shiftOperand_lead (s : Stacks) (c : Cursor) :
    match lead? c with
    | some (.atom e) => s.shiftOperand c = .ok (s.pushOperand e)
    | some (.unary op) => s.shiftOperand c = .ok (s.pushUnary op c.span.start)
    | some (.opening b) => s.shiftOperand c = .ok (s.openBracket b c.span.start)
    | none => ∃ err, s.shiftOperand c = .error err := by
  unfold lead? Stacks.shiftOperand
  cases c.current with
  | integer lexeme => cases h : Number.readFloat? lexeme.toList <;> simp [h]
  | decimal lexeme => cases h : Number.readFloat? lexeme.toList <;> simp [h]
  | dili => cases Stacks.negates c <;> simp
  | name | text | oo => rfl
  | op o =>
      rcases o with (_ | _ | _ | _ | _) | _ | _
      case arithmetic.sub => rfl
      all_goals exact ⟨_, (apply_ite Except.error _ _ _).symm⟩
  | mark m =>
      cases m
      case lparen => rfl
      case lbracket => rfl
      all_goals exact ⟨_, (apply_ite Except.error _ _ _).symm⟩
  | word | type | step | eof => exact ⟨_, (apply_ite Except.error _ _ _).symm⟩

/-- The result of a reading with stacks, errors forgotten. -/
def result? {α : Type} : EStateM.Result SyntaxError Cursor α → Option (α × Cursor)
  | .ok a d => some (a, d)
  | .error _ _ => none

theorem read_error {s : Stacks} {c : Cursor} {err : SyntaxError} (h : s.shift c = .error err) :
    result? (s.read c.tokens c.lastEnd) = none := by
  obtain ⟨tokens, lastEnd⟩ := c
  unfold Stacks.read
  split <;> simp_all [result?]

theorem read_shift {s s' : Stacks} {c : Cursor} (hc : c.current ≠ .eof)
    (h : s.shift c = .ok (some s')) :
    s.read c.tokens c.lastEnd = s'.read c.step.tokens c.step.lastEnd := by
  obtain ⟨t, rest, ht, -, -, hs⟩ := Cursor.tokens_of_current hc
  obtain ⟨tokens, lastEnd⟩ := c
  simp only at ht
  subst ht
  rw [hs]
  conv => lhs; unfold Stacks.read
  simp only [h]

theorem read_finish {s : Stacks} {c : Cursor} (h : s.shift c = .ok none) :
    result? (s.read c.tokens c.lastEnd) =
      match s.finish c.span with
      | .ok e => some (e, c)
      | .error _ => none := by
  obtain ⟨tokens, lastEnd⟩ := c
  unfold Stacks.read
  simp only
  split
  · simp_all
  · simp_all
  · split <;> simp_all [result?]

/-! ### The simulation -/

/-- At a token that extends nothing, and that does not close the innermost bracket either, the reader
with stacks finishes, and the pending calls return. -/
theorem finish_frames {k : List Frame} {e : Expr} {c : Cursor} (h : ∀ m, Stops m c)
    (hb : ∀ b start k', (unwind 0 e k).2 = .opening b start :: k' → c.current ≠ b.closing) :
    (match (stackedCalls k [e] false).finish c.span with
      | .ok e => some (e, c)
      | .error _ => none) = resume k e c := by
  rw [resume_unwind (fun m (_ : 0 ≤ m) => h m) e k]
  simp only [Stacks.finish, stackedCalls, List.singleton_append]
  rw [reduceAll_frames]
  rcases unwind_zero e k with h0 | ⟨b, start, k', h0⟩
  · rw [h0]
    simp only [List.flatMap_nil, List.map_nil, resume, extend?_stop (h 0)]
    rfl
  · rw [h0]
    simp only [resume, extend?_stop (h 0), Option.bind_some, if_neg (hb b start k' h0)]
    rfl

/-- A closing bracket makes a group of what stands in the innermost bracket, if it fits. -/
theorem closeGroup_frames {b : Bracket} {e : Expr} {k k' : List Frame} {b' : Bracket} {start : Nat}
    (h : (unwind 0 e k).2 = .opening b' start :: k') (stop : Nat) :
    (b' = b → closeGroup b stop (e :: k.flatMap Frame.lefts) (k.map Frame.pending) =
      .ok (.group (unwind 0 e k).1 ⟨start, stop⟩ :: k'.flatMap Frame.lefts,
        k'.map Frame.pending)) ∧
    (b' ≠ b → ∃ err, closeGroup b stop (e :: k.flatMap Frame.lefts) (k.map Frame.pending) =
      .error err) := by
  unfold closeGroup
  rw [reduceWhile_frames, h]
  constructor
  · rintro rfl
    exact if_pos rfl
  · intro hne
    exact ⟨⟨.mismatchedBrackets, ⟨start, stop⟩⟩, if_neg hne⟩

theorem stops_of_not_op {c : Cursor} (h : ∀ op, c.current ≠ .op op) (m : Nat) : Stops m c :=
  fun op hop => absurd hop (h op)

/-- What a binary operator does to the stacks. -/
theorem shift_op {c : Cursor} {op : BinaryOp} (h : c.current = .op op) (e : Expr) (k : List Frame) :
    (stackedCalls k [e] false).shift c =
      .ok (some (stackedCalls (.binary (unwind op.precedence e k).1 op c.span ::
        (unwind op.precedence e k).2) [] true)) := by
  simp only [Stacks.shift, Stacks.shiftOperator?, h, stackedCalls, Bool.false_eq_true, if_false,
    Stacks.pushBinary, List.singleton_append, reduceWhile_frames, List.nil_append]
  simp [Functor.map, Except.map, bind, Except.bind, pure, Except.pure, Frame.lefts, Frame.pending,
    openBrackets, Frame.brackets, brackets_unwind]

/-- What a closing bracket does to the stacks: it closes a group if a bracket is open, and else does
not belong to the expression. -/
theorem shift_closing {c : Cursor} {b : Bracket} (h : c.current = b.closing) (e : Expr)
    (k : List Frame) :
    (stackedCalls k [e] false).shift c =
      if 0 < openBrackets k then
        some <$> (stackedCalls k [e] false).closeBracket b c.span.stop
      else .ok none := by
  cases b with
  | round =>
      simp only [Bracket.closing] at h
      simp only [Stacks.shift, Stacks.shiftOperator?, h, stackedCalls, Bool.false_eq_true, if_false]
      rfl
  | square =>
      simp only [Bracket.closing] at h
      simp only [Stacks.shift, Stacks.shiftOperator?, h, stackedCalls, Bool.false_eq_true, if_false]
      rfl

/-- Any other token does not belong to the expression. -/
theorem shift_other {c : Cursor} (hop : ∀ op, c.current ≠ .op op)
    (hb : ∀ b : Bracket, c.current ≠ b.closing) (e : Expr) (k : List Frame) :
    (stackedCalls k [e] false).shift c = .ok none := by
  have hr := hb .round
  have hs := hb .square
  simp only [Bracket.closing] at hr hs
  simp only [Stacks.shift, Stacks.shiftOperator?, stackedCalls, Bool.false_eq_true, if_false]

/-- A bracket that is left at level zero is open. -/
theorem brackets_pos_of_unwind {e : Expr} {k k' : List Frame} {b : Bracket} {start : Nat}
    (h : (unwind 0 e k).2 = .opening b start :: k') : 0 < openBrackets k := by
  rw [← brackets_unwind 0 e k, h]
  simp only [openBrackets, Frame.brackets]
  omega

/-- Reading on from `c` with the stacks of `k` is resuming `k`, where an operator is expected behind an
operand `e`, and where an operand is expected. -/
structure Agrees (c : Cursor) (k : List Frame) : Prop where
  operator : ∀ e, result? ((stackedCalls k [e] false).read c.tokens c.lastEnd) = resume k e c
  operand : result? ((stackedCalls k [] true).read c.tokens c.lastEnd) =
    (operand? c).bind fun (e, d) => resume k e d

/-- One token where an operand is expected. -/
theorem agrees_operand {c : Cursor} (ih : c.current ≠ .eof → ∀ k, Agrees c.step k)
    (k : List Frame) : result? ((stackedCalls k [] true).read c.tokens c.lastEnd) =
      (operand? c).bind fun (e, d) => resume k e d := by
  have hshift : (stackedCalls k [] true).shift c =
      some <$> (stackedCalls k [] true).shiftOperand c := rfl
  have hlead := shiftOperand_lead (stackedCalls k [] true) c
  rcases hl : lead? c with _ | l
  · rw [hl] at hlead
    obtain ⟨err, herr⟩ := hlead
    rw [herr] at hshift
    rw [read_error hshift, operand?_none hl]
    rfl
  · have hc : c.current ≠ .eof := by
      intro he
      rw [lead?_eof he] at hl
      exact absurd hl (by simp)
    rw [hl] at hlead
    cases l with
    | atom e =>
        simp only at hlead
        rw [hlead] at hshift
        rw [read_shift hc hshift, operand?_atom hl]
        exact (ih hc k).operator e
    | unary op =>
        -- the sign becomes a call that waits for its operand
        have hpush : (stackedCalls k [] true).pushUnary op c.span.start =
            stackedCalls (.unary op c.span.start :: k) [] true := by
          simp [stackedCalls, Stacks.pushUnary, Frame.lefts, Frame.pending, openBrackets,
            Frame.brackets]
        simp only [hpush] at hlead
        rw [hlead] at hshift
        rw [read_shift hc hshift, (ih hc _).operand, operand?_unary hl, climb?_eq]
        simp only [resume, Option.bind_assoc, Option.bind_some]
    | opening b =>
        have hopen : (stackedCalls k [] true).openBracket b c.span.start =
            stackedCalls (.opening b c.span.start :: k) [] true := by
          simp [stackedCalls, Stacks.openBracket, Frame.lefts, Frame.pending, openBrackets,
            Frame.brackets, Nat.add_comm]
        simp only [hopen] at hlead
        rw [hlead] at hshift
        rw [read_shift hc hshift, (ih hc _).operand, operand?_opening hl, climb?_eq]
        simp only [resume, Option.bind_assoc]
        congr 1
        funext x
        congr 1
        funext y
        split <;> rfl

theorem closing_ne_op (b : Bracket) (op : BinaryOp) : b.closing ≠ .op op := by
  cases b <;> simp [Bracket.closing]

theorem closing_ne_eof (b : Bracket) : b.closing ≠ .eof := by
  cases b <;> simp [Bracket.closing]

theorem closing_injective {b b' : Bracket} (h : b.closing = b'.closing) : b = b' := by
  cases b <;> cases b' <;> simp_all [Bracket.closing]

theorem precedence_pos (op : BinaryOp) : 0 < op.precedence := by
  rcases op with (_ | _ | _ | _ | _) | _ | (_ | _) <;> simp [BinaryOp.precedence]

/-- A closing bracket where an operator is expected. -/
theorem agrees_closing {c : Cursor} {b : Bracket} (h : c.current = b.closing)
    (ih : ∀ k, Agrees c.step k) (k : List Frame) (e : Expr) :
    result? ((stackedCalls k [e] false).read c.tokens c.lastEnd) = resume k e c := by
  have hstop := stops_of_not_op (c := c) fun op => h ▸ closing_ne_op b op
  have hc : c.current ≠ .eof := h ▸ closing_ne_eof b
  have hshift := shift_closing h e k
  rcases unwind_zero e k with h0 | ⟨b', start, k', h0⟩
  · -- no bracket is open, so that the expression ends here
    have hnone : ¬0 < openBrackets k := by
      rw [← brackets_unwind 0 e k, h0]
      simp [openBrackets]
    rw [if_neg hnone] at hshift
    rw [read_finish hshift]
    exact finish_frames hstop fun b start k' hk => by rw [h0] at hk; exact absurd hk (by simp)
  · rw [if_pos (brackets_pos_of_unwind h0)] at hshift
    rw [resume_unwind (fun m (_ : 0 ≤ m) => hstop m) e k, h0]
    simp only [resume, extend?_stop (hstop 0), Option.bind_some]
    by_cases hb : b' = b
    · have hgroup := (closeGroup_frames h0 c.span.stop).1 hb
      have hstacks : (stackedCalls k [e] false).closeBracket b c.span.stop =
          .ok (stackedCalls k' [.group (unwind 0 e k).1 ⟨start, c.span.stop⟩] false) := by
        have hsum := brackets_unwind 0 e k
        rw [h0] at hsum
        simp only [openBrackets, Frame.brackets] at hsum
        simp only [Stacks.closeBracket, stackedCalls, List.singleton_append, hgroup, ← hsum]
        simp [bind, Except.bind, pure, Except.pure]
      rw [hstacks] at hshift
      rw [read_shift hc hshift, (ih k').operator, if_pos (by rw [h, hb])]
    · obtain ⟨err, herr⟩ := (closeGroup_frames h0 c.span.stop).2 hb
      have hstacks : (stackedCalls k [e] false).closeBracket b c.span.stop = .error err := by
        simp only [Stacks.closeBracket, stackedCalls, List.singleton_append, herr]
        rfl
      rw [hstacks] at hshift
      rw [read_error hshift, if_neg fun hcl => hb (closing_injective (hcl.symm.trans h))]

/-- One token where an operator is expected. -/
theorem agrees_operator {c : Cursor} (ih : c.current ≠ .eof → ∀ k, Agrees c.step k)
    (k : List Frame) (e : Expr) :
    result? ((stackedCalls k [e] false).read c.tokens c.lastEnd) = resume k e c := by
  by_cases hop : ∃ op, c.current = .op op
  · obtain ⟨op, hop⟩ := hop
    have hc : c.current ≠ .eof := by rw [hop]; simp
    have hstop : ∀ m, op.precedence ≤ m → Stops m c := by
      intro m hm op' hop'
      rw [hop] at hop'
      exact Token.op.inj hop' ▸ hm
    -- calls that bind at least as tightly return, and the operator is a new call on the others
    rw [read_shift hc (shift_op hop e k), (ih hc _).operand, resume_unwind hstop e k,
      resume_op hop (innerLevel_unwind (precedence_pos op) e k)]
  · have hop : ∀ op, c.current ≠ .op op := fun op h => hop ⟨op, h⟩
    by_cases hb : ∃ b : Bracket, c.current = b.closing
    · obtain ⟨b, hb⟩ := hb
      exact agrees_closing hb (ih (hb ▸ closing_ne_eof b)) k e
    · have hb : ∀ b : Bracket, c.current ≠ b.closing := fun b h => hb ⟨b, h⟩
      rw [read_finish (shift_other hop hb e k)]
      exact finish_frames (stops_of_not_op hop) fun b _ _ _ => hb b

/-- **Reading with stacks is resuming the calls that the stacks stand for**, token by token. -/
theorem agrees (tokens : List Spanned) (lastEnd : Nat) (k : List Frame) :
    Agrees ⟨tokens, lastEnd⟩ k := by
  induction tokens generalizing lastEnd k with
  | nil =>
      -- where no token is left, none is shifted
      have ih : (Cursor.mk [] lastEnd).current ≠ .eof → ∀ k, Agrees (Cursor.mk [] lastEnd).step k :=
        fun h => absurd rfl h
      exact ⟨agrees_operator ih k, agrees_operand ih k⟩
  | cons t rest ihr =>
      have ih : (Cursor.mk (t :: rest) lastEnd).current ≠ .eof →
          ∀ k, Agrees (Cursor.mk (t :: rest) lastEnd).step k := fun _ k => ihr t.span.stop k
      exact ⟨agrees_operator ih k, agrees_operand ih k⟩

/-- **The reader with stacks is the recursive reader.** -/
theorem result?_expression (c : Cursor) : result? (Parse.expression c) = climb? 0 c := by
  rw [climb?_eq]
  exact (agrees c.tokens c.lastEnd []).operand

end Climb

end BisayaLang
