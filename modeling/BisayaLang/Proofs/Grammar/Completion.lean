/-
**Expressions that can still be completed.**

Where the reader of expressions stops with an error, everything it has read so far is the start of an
expression.  Its stacks say how to go on: with an operand, if one is expected, and with a closing bracket
for every bracket that is open.  The truth value `OO` serves as the operand, since it can be followed by
anything that ends an expression.

The errors themselves point at the next token, and name it, but for those about brackets, which point at
a bracket.

Main definitions:

* `BisayaLang.SyntaxError.PointsAt` — an error marks the next token, and names no other;
* `BisayaLang.Completes` — some further tokens make a complete part of what was read;
* `BisayaLang.Stacks.InCalls`, `BisayaLang.Stacks.Shifts` — the stacks stand for pending calls, and what
  one token does to such stacks;
* `BisayaLang.Climb.closers` — the brackets that close those of pending calls;
* `BisayaLang.Repair` — the tokens complete what was read with some stacks.

Main results:

* `BisayaLang.resume_closers` — the closing brackets make all pending calls return;
* `BisayaLang.Repair.here`, `BisayaLang.Repair.cons` — a reading can be completed where it stops, and is
  completed by what completes it behind its next token;
* `BisayaLang.expression_repair` — **what was read before an error in an expression can be completed**.
-/

import BisayaLang.Proofs.Grammar.Splice
import BisayaLang.Proofs.Grammar.ErrorSpans

set_option relaxedAutoImplicit false
set_option autoImplicit false

namespace BisayaLang

open Climb Parse

/-! ### Errors at the next token -/

/-- The token that a fault names. -/
def SyntaxFault.found? : SyntaxFault → Option Token
  | .expectedName t | .expectedType t | .expectedStep t | .expectedValue t | .misplacedMarker t
  | .unexpectedToken t _ => some t
  | _ => none

/-- The token is no number, or one that has a value. -/
def Token.readable : Token → Bool
  | .integer lexeme | .decimal lexeme => (Number.readFloat? lexeme.toList).isSome
  | _ => true

/-- The error marks the next token and names no other, unless it is about brackets. -/
def SyntaxError.PointsAt (e : SyntaxError) (d : Cursor) : Prop :=
  e.fault ≠ .mismatchedBrackets →
    e.span = d.span ∧ (d.current.readable = true → ∀ t, e.fault.found? = some t → t = d.current)

/-- The tokens `w` make a complete part of what was read from `c` to `d`, before all that may follow
it. -/
def Completes (R : Cursor → Cursor → Prop) (F : List Token → Prop) (c d : Cursor)
    (w : List Token) : Prop :=
  ∀ z : List Spanned, F (z.map Spanned.token) →
    ∃ m, R (c.splice d (unplaced w ++ z)) m ∧ m.tokens = z

/-! ### Stacks and pending calls -/

/-- The stacks stand for pending calls, before an operand or behind one. -/
inductive Stacks.InCalls : Stacks → Prop
  | operand (k : List Frame) : InCalls (stackedCalls k [] true)
  | operator (k : List Frame) (e : Expr) : InCalls (stackedCalls k [e] false)

/-- What closes the bracket of a pending call, if it has one. -/
def Climb.closers : List Frame → List Token
  | [] => []
  | .opening b _ :: k => b.closing :: closers k
  | .binary .. :: k | .unary .. :: k => closers k

theorem ends_closing (b : Bracket) (ts : List Token) : Ends (b.closing :: ts) := by
  cases b with
  | round => exact ends_mark rfl rfl ts
  | square => exact ends_mark rfl rfl ts

theorem ends_closers (k : List Frame) {ts : List Token} (h : Ends ts) : Ends (closers k ++ ts) := by
  induction k with
  | nil => exact h
  | cons f k ih =>
      cases f with
      | opening b start => exact ends_closing b _
      | binary | unary => exact ih

/-- An expression that ends is extended by nothing. -/
theorem Ends.stops {c : Cursor} (h : Ends c.kinds) (min : Nat) : Stops min c := by
  intro op hop
  rw [Cursor.current_eq] at hop
  exact absurd hop (h.operator op)

theorem map_token_unplaced_append (w : List Token) (z : List Spanned) :
    (unplaced w ++ z).map Spanned.token = w ++ z.map Spanned.token := by
  rw [List.map_append, map_token_unplaced]

/-- **Closing brackets make all pending calls return.** -/
theorem resume_closers (k : List Frame) {z : List Spanned} (hz : Ends (z.map Spanned.token))
    (e : Expr) (lastEnd : Nat) :
    ∃ x m, resume k e ⟨unplaced (closers k) ++ z, lastEnd⟩ = some (x, m) ∧ m.tokens = z := by
  induction k generalizing e lastEnd with
  | nil => exact ⟨e, _, extend?_stop (@Ends.stops ⟨z, lastEnd⟩ hz 0) e, rfl⟩
  | cons f k ih =>
      have hstops : ∀ min, Stops min ⟨unplaced (closers (f :: k)) ++ z, lastEnd⟩ := by
        refine Ends.stops ?_
        rw [Cursor.kinds, map_token_unplaced_append]
        exact ends_closers _ hz
      cases f with
      | binary left op span =>
          rw [resume, extend?_stop (hstops _)]
          exact ih _ _
      | unary op start =>
          rw [resume, extend?_stop (hstops _)]
          exact ih _ _
      | opening b start =>
          have hcur : Cursor.current ⟨unplaced (closers (.opening b start :: k)) ++ z, lastEnd⟩ =
              b.closing := rfl
          simp only [resume, extend?_stop (hstops _), Option.bind_some, if_pos hcur]
          exact ih _ _

/-! ### What one token does -/

/-- Where an operand is expected, an error names the next token. -/
theorem Stacks.shiftOperand_points {s : Stacks} {c : Cursor} {err : SyntaxError}
    (h : s.shiftOperand c = .error err) : err.PointsAt c := by
  intro _
  refine ⟨Stacks.shiftOperand_error h, fun hread t ht => ?_⟩
  unfold Stacks.shiftOperand at h
  split at h <;> repeat' split at h
  all_goals
      cases h
      try cases ht
  all_goals simp_all [Token.readable]

theorem pointsAt_mismatched (span : Span) (d : Cursor) :
    SyntaxError.PointsAt ⟨.mismatchedBrackets, span⟩ d := fun h => absurd rfl h

/-- What closing a bracket comes to: it returns from the calls inside, or the bracket does not fit. -/
theorem closeBracket_cases {b : Bracket} {e : Expr} {k : List Frame} (ho : 0 < openBrackets k)
    (stop : Nat) :
    (∃ k' x, (stackedCalls k [e] false).closeBracket b stop = .ok (stackedCalls k' [x] false)) ∨
    ∃ span, (stackedCalls k [e] false).closeBracket b stop = .error ⟨.mismatchedBrackets, span⟩ := by
  rcases unwind_zero e k with h0 | ⟨b', start, k', h0⟩
  · rw [← brackets_unwind 0 e k, h0] at ho
    exact absurd ho (Nat.lt_irrefl 0)
  · have hsum := brackets_unwind 0 e k
    rw [h0] at hsum
    simp only [openBrackets, Frame.brackets] at hsum
    by_cases hb : b' = b
    · refine .inl ⟨k', .group (unwind 0 e k).1 ⟨start, stop⟩, ?_⟩
      simp only [Stacks.closeBracket, stackedCalls, List.singleton_append,
        (closeGroup_frames h0 stop).1 hb, ← hsum]
      simp [bind, Except.bind, pure, Except.pure]
    · refine .inr ⟨⟨start, stop⟩, ?_⟩
      have hgroup : closeGroup b stop (e :: k.flatMap Frame.lefts) (k.map Frame.pending) =
          .error ⟨.mismatchedBrackets, ⟨start, stop⟩⟩ := by
        unfold closeGroup
        rw [reduceWhile_frames, h0]
        exact if_neg hb
      simp only [Stacks.closeBracket, stackedCalls, List.singleton_append, hgroup]
      rfl

/-- An expression that ends with an open bracket is at fault for that. -/
theorem finish_pending_points {k : List Frame} {e : Expr} {here : Span} {err : SyntaxError} {d : Cursor}
    (h : (stackedCalls k [e] false).finish here = .error err) : err.PointsAt d := by
  simp only [Stacks.finish, stackedCalls, List.singleton_append] at h
  rw [reduceAll_frames] at h
  rcases unwind_zero e k with h0 | ⟨b, start, k', h0⟩
  · rw [h0] at h
    cases h
  · rw [h0] at h
    cases h
    exact pointsAt_mismatched _ d

/-- What one token can do to stacks that stand for pending calls: it leaves such stacks, or it is at
fault, or the expression ends. -/
inductive Stacks.Shifts (s : Stacks) (c : Cursor) : Prop
  | pushed (s' : Stacks) : s.shift c = .ok (some s') → s'.InCalls → c.current ≠ .eof →
      (s.expectsOperand = false → c.current.isName = false) →
      (s.expectsOperand = true → c.current = .dili → s'.expectsOperand = Stacks.negates c) →
      s.Shifts c
  | fault (err : SyntaxError) : s.shift c = .error err → err.PointsAt c → s.Shifts c
  | ended : s.shift c = .ok none → (∀ err, s.finish c.span = .error err → err.PointsAt c) →
      s.Shifts c

theorem shifts_operand (k : List Frame) (c : Cursor) : (stackedCalls k [] true).Shifts c := by
  have hshift : (stackedCalls k [] true).shift c =
      some <$> (stackedCalls k [] true).shiftOperand c := rfl
  have hlead := shiftOperand_lead (stackedCalls k [] true) c
  cases hl : lead? c with
  | none =>
      rw [hl] at hlead
      obtain ⟨err, herr⟩ := hlead
      rw [herr] at hshift
      exact .fault err hshift (Stacks.shiftOperand_points herr)
  | some l =>
      have hc : c.current ≠ .eof := by
        intro he
        rw [lead?_eof he] at hl
        cases hl
      rw [hl] at hlead
      -- what `DILI` leads says whether an operand comes next
      have hdili : c.current = .dili → (l = .unary .dili ↔ Stacks.negates c = true) := by
        intro hd
        simp only [lead?, hd] at hl
        split at hl <;> cases hl <;> simp_all
      cases l with
      | atom e =>
          refine .pushed (stackedCalls k [e] false) (by rw [hshift, hlead]; rfl) (.operator k e) hc
            (by simp [stackedCalls]) fun _ hd => ?_
          have := hdili hd
          simp_all [stackedCalls]
      | unary op =>
          refine .pushed (stackedCalls (.unary op c.span.start :: k) [] true) ?_ (.operand _) hc
            (by simp [stackedCalls]) fun _ hd => ?_
          · rw [hshift, hlead]
            simp [stackedCalls, Stacks.pushUnary, Frame.lefts, Frame.pending, openBrackets,
              Frame.brackets, Functor.map, Except.map]
          · have hop : op = .dili := by
              simp only [lead?, hd] at hl
              split at hl <;> simp_all
            rw [(hdili hd).1 (by rw [hop])]
            rfl
      | opening b =>
          refine .pushed (stackedCalls (.opening b c.span.start :: k) [] true) ?_ (.operand _) hc
            (by simp [stackedCalls]) fun _ hd => ?_
          · rw [hshift, hlead]
            simp [stackedCalls, Stacks.openBracket, Frame.lefts, Frame.pending, openBrackets,
              Frame.brackets, Nat.add_comm, Functor.map, Except.map]
          · simp only [lead?, hd] at hl
            split at hl <;> cases hl

theorem shifts_operator (k : List Frame) (e : Expr) (c : Cursor) :
    (stackedCalls k [e] false).Shifts c := by
  by_cases hop : ∃ op, c.current = .op op
  · obtain ⟨op, hop⟩ := hop
    exact .pushed _ (shift_op hop e k) (.operand _) (by simp [hop]) (by simp [hop, Token.isName])
      (by simp [stackedCalls])
  have hop : ∀ op, c.current ≠ .op op := fun op h => hop ⟨op, h⟩
  by_cases hb : ∃ b : Bracket, c.current = b.closing ∧ 0 < openBrackets k
  · obtain ⟨b, hb, ho⟩ := hb
    have hshift := shift_closing hb e k
    rw [if_pos ho] at hshift
    rcases closeBracket_cases ho c.span.stop with ⟨k', x, hx⟩ | ⟨span, hx⟩
    · rw [hx] at hshift
      exact .pushed _ hshift (.operator k' x) (hb ▸ closing_ne_eof b)
        (fun _ => by rw [hb]; cases b <;> rfl) (by simp [stackedCalls])
    · rw [hx] at hshift
      exact .fault _ hshift (pointsAt_mismatched span c)
  · refine .ended ?_ fun err herr => finish_pending_points herr
    by_cases hcl : ∃ b : Bracket, c.current = b.closing
    · obtain ⟨b, hcl⟩ := hcl
      rw [shift_closing hcl e k, if_neg fun ho => hb ⟨b, hcl, ho⟩]
    · exact shift_other hop (fun b h => hcl ⟨b, h⟩) e k

theorem Stacks.InCalls.shifts {s : Stacks} (hs : s.InCalls) (c : Cursor) : s.Shifts c := by
  cases hs with
  | operand k => exact shifts_operand k c
  | operator k e => exact shifts_operator k e c

/-! ### The whole reading -/

/-- What a token does to the stacks depends on the token and its place, and for `DILI` on what stands
ahead. -/
theorem Stacks.shift_congr {s : Stacks} {c c₂ : Cursor} (hc : c₂.current = c.current)
    (hs : c₂.span = c.span)
    (hd : s.expectsOperand = true → c.current = .dili → Stacks.negates c₂ = Stacks.negates c) :
    s.shift c₂ = s.shift c := by
  unfold Stacks.shift Stacks.shiftOperand Stacks.shiftOperator?
  rw [hc, hs]
  cases he : s.expectsOperand with
  | false => rfl
  | true =>
      simp only [if_true]
      split <;> try rfl
      rw [hd he ‹_›]

/-- The tokens `w` complete what was read with the stacks from `c` to `d`, and leave open whether an
operand stands ahead no more than the tokens did that were there. -/
structure Repair (s : Stacks) (c d : Cursor) (w : List Token) : Prop where
  leadsTo : c.LeadsTo d
  reads : ∀ z : List Spanned, Ends (z.map Spanned.token) →
    ∃ e m, result? (s.read (c.splice d (unplaced w ++ z)).tokens c.lastEnd) = some (e, m) ∧
      m.tokens = z
  plain : ∀ ts, Ends ts → ((w ++ ts).headD .eof).isAssign = false ∧
    ∀ op, (w ++ ts).headD .eof ≠ .op op
  operand : ∀ z : List Spanned, Ends (z.map Spanned.token) → s.expectsOperand = true →
    operandAhead c.kinds = true → operandAhead (c.splice d (unplaced w ++ z)).kinds = true
  operator : ∀ z : List Spanned, Ends (z.map Spanned.token) → s.expectsOperand = false →
    operandAhead (c.splice d (unplaced w ++ z)).kinds = true → operandAhead c.kinds = true

/-- **An expression can be completed where its reading stops.** -/
theorem Repair.here {s : Stacks} (hs : s.InCalls) (c : Cursor) : ∃ w, Repair s c c w := by
  have hkinds : ∀ (w : List Token) (z : List Spanned),
      (c.splice c (unplaced w ++ z)).kinds = w ++ z.map Spanned.token := by
    intro w z
    rw [Cursor.splice_self, Cursor.kinds, map_token_unplaced_append]
  cases hs with
  | operand k =>
      refine ⟨.oo :: closers k, .refl c, fun z hz => ?_, fun ts _ => ⟨rfl, by simp⟩,
        fun z _ _ _ => by rw [hkinds]; rfl, fun _ _ h => absurd h (by simp [stackedCalls])⟩
      rw [Cursor.splice_self]
      obtain ⟨x, m, hx, hm⟩ := resume_closers k hz (.bool true (.point 0)) 0
      refine ⟨x, m, ?_, hm⟩
      have hagree := (agrees (unplaced (.oo :: closers k) ++ z) c.lastEnd k).operand
      rw [operand?_atom (e := .bool true (.point 0)) rfl] at hagree
      exact hagree.trans hx
  | operator k e =>
      refine ⟨closers k, .refl c, fun z hz => ?_, fun ts hts => ?_,
        fun _ _ h => absurd h (by simp [stackedCalls]), fun z hz _ h => ?_⟩
      · rw [Cursor.splice_self]
        obtain ⟨x, m, hx, hm⟩ := resume_closers k hz e c.lastEnd
        exact ⟨x, m, ((agrees _ _ k).operator e).trans hx, hm⟩
      · exact ⟨(ends_closers k hts).assign, (ends_closers k hts).operator⟩
      · rw [hkinds, (ends_closers k hz).operand] at h
        cases h

/-- What completes the reading behind a token completes it with the token. -/
theorem Repair.cons {s s' : Stacks} {c d : Cursor} {w : List Token} (h : Repair s' c.step d w)
    (hc : c.current ≠ .eof) (hshift : s.shift c = .ok (some s'))
    (hname : s.expectsOperand = false → c.current.isName = false)
    (hdili : s.expectsOperand = true → c.current = .dili →
      s'.expectsOperand = Stacks.negates c) : Repair s c d w := by
  have hto : c.LeadsTo d := c.leadsTo_step.trans h.leadsTo
  have hne : c.upTo d ≠ [] := by
    obtain ⟨t, ht, -⟩ := Cursor.upTo_eq_cons hc h.leadsTo
    simp [ht]
  refine ⟨hto, fun z hz => ?_, h.plain, fun z hz he ho => ?_, fun z hz he ho => ?_⟩
  · have hcur := Cursor.current_splice hc h.leadsTo (unplaced w ++ z)
    have hstep := Cursor.step_splice hc h.leadsTo (unplaced w ++ z)
    have hsame : s.shift (c.splice d (unplaced w ++ z)) = .ok (some s') := by
      refine (Stacks.shift_congr hcur (Cursor.span_splice hc h.leadsTo _) fun he hd => ?_).trans
        hshift
      rw [Stacks.negates_eq, Stacks.negates_eq, hstep]
      have hnext := hdili he hd
      rw [Stacks.negates_eq] at hnext
      cases ho : operandAhead c.step.kinds with
      | true => exact h.operand z hz (hnext.trans ho) ho
      | false =>
          cases ho' : operandAhead (c.step.splice d (unplaced w ++ z)).kinds with
          | false => rfl
          | true => exact (h.operator z hz (hnext.trans ho) ho').symm.trans ho
    obtain ⟨e, m, hread, hm⟩ := h.reads z hz
    refine ⟨e, m, ?_, hm⟩
    have hshifted := read_shift (by rw [hcur]; exact hc) hsame
    rw [hstep] at hshifted
    rw [show c.lastEnd = (c.splice d (unplaced w ++ z)).lastEnd from rfl, hshifted]
    exact hread
  · rw [Cursor.kinds_splice, map_token_unplaced_append]
    rw [hto.kinds] at ho
    refine operandAhead_append (by simpa using hne) ho fun ha => ?_
    rw [(h.plain _ hz).1] at ha
    cases ha
  · -- an operator is an operand's first token whatever stands behind it
    obtain ⟨t, run, hrun⟩ := List.exists_cons_of_ne_nil hne
    have hn : t.token.isName = false := by
      have hk := hto.kinds
      rw [hrun, List.map_cons, List.cons_append] at hk
      rw [← Cursor.current_of_kinds hk]
      exact hname he
    rw [Cursor.kinds_splice, hrun] at ho
    rw [hto.kinds, hrun]
    simpa [operandAhead, hn] using ho

/-- A reading stops at a token that is at fault. -/
theorem read_of_fault {s : Stacks} {c d : Cursor} {err err' : SyntaxError}
    (hs : s.shift c = .error err') (h : s.read c.tokens c.lastEnd = .error err d) :
    err = err' ∧ d = c := by
  obtain ⟨tokens, lastEnd⟩ := c
  unfold Stacks.read at h
  simp only [hs] at h
  cases h
  exact ⟨rfl, rfl⟩

/-- A reading that fails at the end of an expression fails there for its brackets. -/
theorem read_of_ended {s : Stacks} {c d : Cursor} {err : SyntaxError}
    (hs : s.shift c = .ok none) (h : s.read c.tokens c.lastEnd = .error err d) :
    s.finish c.span = .error err ∧ d = c := by
  obtain ⟨tokens, lastEnd⟩ := c
  unfold Stacks.read at h
  simp only [hs] at h
  split at h
  · cases h
  · cases h
    exact ⟨‹_›, rfl⟩

/-- **What was read with stacks before an error can be completed**, and the error points at the next
token. -/
theorem read_repair (tokens : List Spanned) : ∀ {lastEnd : Nat} {s : Stacks} {err : SyntaxError}
    {d : Cursor}, s.InCalls → s.read tokens lastEnd = .error err d →
      err.PointsAt d ∧ ∃ w, Repair s ⟨tokens, lastEnd⟩ d w := by
  induction tokens with
  | nil =>
      intro lastEnd s err d hs h
      cases hs.shifts ⟨[], lastEnd⟩ with
      | pushed _ _ _ hc _ _ => exact absurd rfl hc
      | fault err' herr hp =>
          obtain ⟨rfl, rfl⟩ := read_of_fault herr h
          exact ⟨hp, Repair.here hs _⟩
      | ended hn hp =>
          obtain ⟨herr, rfl⟩ := read_of_ended hn h
          exact ⟨hp _ herr, Repair.here hs _⟩
  | cons t rest ih =>
      intro lastEnd s err d hs h
      cases hs.shifts ⟨t :: rest, lastEnd⟩ with
      | pushed s' hshift hs' hc hname hdili =>
          have hread := read_shift hc hshift
          rw [show Stacks.read (Cursor.mk (t :: rest) lastEnd).tokens
            (Cursor.mk (t :: rest) lastEnd).lastEnd s = s.read (t :: rest) lastEnd from rfl,
            h] at hread
          obtain ⟨hp, w, hw⟩ := ih hs' hread.symm
          exact ⟨hp, w, hw.cons hc hshift hname hdili⟩
      | fault err' herr hp =>
          obtain ⟨rfl, rfl⟩ := read_of_fault herr h
          exact ⟨hp, Repair.here hs _⟩
      | ended hn hp =>
          obtain ⟨herr, rfl⟩ := read_of_ended hn h
          exact ⟨hp _ herr, Repair.here hs _⟩

/-! ### Expressions -/

theorem eq_ok_of_result? {α : Type} {r : EStateM.Result SyntaxError Cursor α} {a : α} {d : Cursor}
    (h : result? r = some (a, d)) : r = .ok a d := by
  cases r with
  | ok =>
      cases h
      rfl
  | error => cases h

theorem inCalls_start : Stacks.start.InCalls := .operand []

/-- **What was read of an expression before an error can be completed.**  What completes it starts neither
with an operator nor with a mark of assignment. -/
theorem expression_repair {c d : Cursor} {err : SyntaxError} (h : expression c = .error err d) :
    err.PointsAt d ∧ c.LeadsTo d ∧ ∃ w,
      (∀ ts, Ends ts → ((w ++ ts).headD .eof).isAssign = false ∧
        ∀ op, (w ++ ts).headD .eof ≠ .op op) ∧
      Completes (fun c m => ∃ e, ExprReads c e m) Ends c d w := by
  obtain ⟨hp, w, hw⟩ := read_repair c.tokens inCalls_start h
  refine ⟨hp, hw.leadsTo, w, hw.plain, fun z hz => ?_⟩
  obtain ⟨e, m, hread, hm⟩ := hw.reads z hz
  exact ⟨m, ⟨e, expression_eq_ok.1 (eq_ok_of_result? hread)⟩, hm⟩

/-- An operand and an operator behind it are read before an error, unless the operand is at fault. -/
theorem expression_error_beyond {c d : Cursor} {err : SyntaxError} (h : expression c = .error err d)
    (hp : c.current.isPlainOperand = true) {op : BinaryOp} (hop : c.step.current = .op op) :
    c = d ∨ c.step.step.LeadsTo d := by
  have hc : c.current ≠ .eof := by
    intro he
    rw [he] at hp
    cases hp
  have hshift : Stacks.start.shift c = some <$> Stacks.start.shiftOperand c := rfl
  have hlead := shiftOperand_lead Stacks.start c
  cases hl : lead? c with
  | none =>
      rw [hl] at hlead
      obtain ⟨err', herr⟩ := hlead
      rw [herr] at hshift
      obtain ⟨-, rfl⟩ := read_of_fault hshift h
      exact .inl rfl
  | some l =>
      rw [hl] at hlead
      cases l with
      | atom e =>
          have hfirst : Stacks.start.shift c = .ok (some (stackedCalls [] [e] false)) := by
            rw [hshift, hlead]
            rfl
          have hread := read_shift hc hfirst
          rw [read_shift (by simp [hop]) (shift_op hop e [])] at hread
          obtain ⟨-, w, hw⟩ := read_repair _ (.operand _) (hread.symm.trans h)
          exact .inr hw.leadsTo
      | unary | opening =>
          exfalso
          revert hl hp
          unfold lead?
          cases c.current <;> simp [Token.isPlainOperand]

end BisayaLang
