/-
**Where syntax errors point.**

The span of a syntax error marks a part of the program text.  Most errors point at the next token.  The
reader of expressions computes some spans from the places of brackets and signs that wait on its stack;
these stand before the next token, and a bracket is one byte, so that the spans fit as well.

Main definitions:

* `BisayaLang.Cursor.Placed` — the tokens that are left have places in the text, behind what was read;
* `BisayaLang.Stacks.Placed` — so have the operands and what waits for them;
* `BisayaLang.Keeps` — a parser leaves a cursor of this kind, and its errors point into the text.

Main results:

* `BisayaLang.Stacks.shift_checks`, `BisayaLang.keeps_expression` — one token of an expression, and all of
  them;
* `BisayaLang.keeps_statement`, `BisayaLang.keeps_whole` — statements, and a program;
* `BisayaLang.parseTokens_error_fits` — **the span of a syntax error fits the text**;
* `BisayaLang.trailing_fits` — and so does the span of the tokens behind a program.
-/

import BisayaLang.Proofs.Grammar.Placement

set_option relaxedAutoImplicit false
set_option autoImplicit false

namespace BisayaLang

/-! ### Tokens in their places -/

/-- A bracket of an expression. -/
def Token.isBracket : Token → Bool
  | .mark .lparen | .mark .rparen | .mark .lbracket | .mark .rbracket => true
  | _ => false

/-- The tokens that are left have places in the text, in order and behind what was read. -/
structure Cursor.Placed (text : List Char) (c : Cursor) : Prop where
  fits : ∀ t ∈ c.tokens, t.span.Fits text
  ordered : c.tokens.Pairwise fun t u => t.span.stop ≤ u.span.start
  lastEnd : CharBoundary text c.lastEnd
  behind : ∀ t ∈ c.tokens, c.lastEnd ≤ t.span.start
  brackets : ∀ t ∈ c.tokens, t.token.isBracket = true → t.span.stop = t.span.start + 1

namespace Cursor.Placed

variable {text : List Char} {c d : Cursor}

theorem step (h : c.Placed text) : c.step.Placed text := by
  rcases c with ⟨_ | ⟨t, rest⟩, lastEnd⟩
  · exact h
  · have hpair := List.pairwise_cons.1 h.ordered
    exact ⟨fun u hu => h.fits u (.tail _ hu), hpair.2, (h.fits t (.head _)).stop, hpair.1,
      fun u hu => h.brackets u (.tail _ hu)⟩

theorem span (h : c.Placed text) : c.span.Fits text := by
  rcases c with ⟨_ | ⟨t, rest⟩, lastEnd⟩
  · exact fits_point h.lastEnd
  · exact h.fits t (.head _)

theorem lastEnd_le (h : c.Placed text) : c.lastEnd ≤ c.span.start := by
  rcases c with ⟨_ | ⟨t, rest⟩, lastEnd⟩
  · exact Nat.le_refl _
  · exact h.behind t (.head _)

theorem span_bracket (h : c.Placed text) (hb : c.current.isBracket = true) :
    c.span.stop = c.span.start + 1 := by
  have hne : c.current ≠ .eof := by
    intro he
    rw [he] at hb
    cases hb
  obtain ⟨t, rest, ht, hk, hspan, -⟩ := Cursor.tokens_of_current hne
  rw [← hspan]
  exact h.brackets t (by rw [ht]; exact .head _) (by rw [hk]; exact hb)

end Cursor.Placed

/-- A bracket is one byte. -/
theorem byteLength_of_isBracket {t : Token} {part : List Char} (hb : t.isBracket = true)
    (h : t.SpelledBy part) : byteLength part = 1 := by
  unfold Token.isBracket at hb
  split at hb
  case h_5 => cases hb
  all_goals
      rw [show part = _ from h]
      rfl

/-- The tokens of a text have places in it. -/
theorem Tiling.placed {text : List Char} {tokens : List Spanned}
    (h : Tiling false 0 text tokens) : (Cursor.start tokens).Placed text := by
  refine ⟨h.fits, h.ordered, charBoundary_zero text, fun t _ => Nat.zero_le _, fun t ht hb => ?_⟩
  have hne : t.token ≠ .eof := by
    intro he
    rw [he] at hb
    cases hb
  obtain ⟨part, ⟨before, after, -, hstart, hstop⟩, hspelled⟩ := h.spelled [] rfl t ht hne
  rw [hstop, hstart, byteLength_append, byteLength_of_isBracket hb hspelled.spelledBy]

/-! ### Errors that point into the text -/

/-- The result has the property, or it is an error that points into the text. -/
def Checks {α : Type} (text : List Char) (Q : α → Prop) : Except SyntaxError α → Prop
  | .ok a => Q a
  | .error e => e.span.Fits text

theorem Checks.bind {α β : Type} {text : List Char} {Q : α → Prop} {R : β → Prop}
    {x : Except SyntaxError α} {f : α → Except SyntaxError β} (hx : Checks text Q x)
    (hf : ∀ a, Q a → Checks text R (f a)) : Checks text R (x >>= f) := by
  cases x with
  | ok a => exact hf a hx
  | error e => exact hx

theorem Checks.map {α β : Type} {text : List Char} {Q : α → Prop} {R : β → Prop}
    {x : Except SyntaxError α} {f : α → β} (hx : Checks text Q x) (hf : ∀ a, Q a → R (f a)) :
    Checks text R (f <$> x) := by
  cases x with
  | ok a => exact hf a hx
  | error e => exact hx

/-- What waits stands before the offset. -/
def Pending.Placed (text : List Char) (stop : Nat) : Pending → Prop
  | .binary _ span => span.Fits text
  | .unary _ start => CharBoundary text start ∧ start ≤ stop
  | .opening _ start => (Span.mk start (start + 1)).Fits text ∧ start ≤ stop

/-- Operands stand before the offset, and there the last of them ends. -/
structure OperandsPlaced (text : List Char) (stop : Nat) (operands : List Expr) : Prop where
  fits : ∀ e ∈ operands, e.span.Fits text ∧ e.span.stop ≤ stop
  last : ∃ e rest, operands = e :: rest ∧ e.span.stop = stop

/-- Operands and what waits stand before the offset.  Where an operator is expected, the last operand
ends there. -/
structure Stacks.Placed (text : List Char) (stop : Nat) (s : Stacks) : Prop where
  fits : ∀ e ∈ s.operands, e.span.Fits text ∧ e.span.stop ≤ stop
  last : s.expectsOperand = false → ∃ e rest, s.operands = e :: rest ∧ e.span.stop = stop
  waiting : ∀ p ∈ s.waiting, p.Placed text stop

section

variable {text : List Char} {stop : Nat}

theorem Pending.Placed.mono {stop' : Nat} {p : Pending} (h : p.Placed text stop)
    (hle : stop ≤ stop') : p.Placed text stop' := by
  cases p with
  | binary op span => exact h
  | unary op start => exact ⟨h.1, Nat.le_trans h.2 hle⟩
  | opening b start => exact ⟨h.1, Nat.le_trans h.2 hle⟩

/-- Completing an operator leaves operands in their places. -/
theorem Pending.complete_checks {p : Pending} {operands : List Expr}
    (h : OperandsPlaced text stop operands) (hp : p.Placed text stop) :
    Checks text (OperandsPlaced text stop) (p.complete operands) := by
  obtain ⟨e, rest, rfl, hstop⟩ := h.last
  obtain ⟨hfit, -⟩ := h.fits e (.head _)
  cases p with
  | binary op span =>
      cases rest with
      | nil => exact hp
      | cons l rest =>
          obtain ⟨hfit', hle⟩ := h.fits l (.tail _ (.head _))
          have hcover : (l.span.cover e.span).stop = stop := by
            rw [Span.cover_stop, hstop]
            omega
          refine ⟨fun x hx => ?_, _, rest, rfl, hcover⟩
          rcases List.mem_cons.1 hx with rfl | hx
          · exact ⟨hfit'.cover hfit, Nat.le_of_eq hcover⟩
          · exact h.fits x (.tail _ (.tail _ hx))
  | unary op start =>
      refine ⟨fun x hx => ?_, _, rest, rfl, hstop⟩
      rcases List.mem_cons.1 hx with rfl | hx
      · exact ⟨⟨by rw [hstop]; exact hp.2, hp.1, hfit.stop⟩, Nat.le_of_eq hstop⟩
      · exact h.fits x (.tail _ hx)
  | opening b start => exact hp.1

theorem reduceWhile_checks {level : Nat} {waiting : List Pending} {operands : List Expr}
    (h : OperandsPlaced text stop operands) (hw : ∀ p ∈ waiting, p.Placed text stop) :
    Checks text (fun x : List Expr × List Pending =>
        OperandsPlaced text stop x.1 ∧ ∀ p ∈ x.2, p.Placed text stop)
      (reduceWhile level operands waiting) := by
  induction waiting generalizing operands with
  | nil => exact ⟨h, hw⟩
  | cons p waiting ih =>
      have hrest : ∀ q ∈ waiting, q.Placed text stop := fun q hq => hw q (.tail _ hq)
      rw [reduceWhile]
      split
      · exact ⟨h, hw⟩
      · split
        · exact (Pending.complete_checks h (hw p (.head _))).bind fun _ h' => ih h' hrest
        · exact ⟨h, hw⟩

theorem reduceAll_checks {waiting : List Pending} {operands : List Expr}
    (h : OperandsPlaced text stop operands) (hw : ∀ p ∈ waiting, p.Placed text stop) :
    Checks text (OperandsPlaced text stop) (reduceAll operands waiting) := by
  induction waiting generalizing operands with
  | nil => exact h
  | cons p waiting ih =>
      rw [reduceAll]
      exact (Pending.complete_checks h (hw p (.head _))).bind fun _ h' =>
        ih h' fun q hq => hw q (.tail _ hq)

/-- Closing a bracket leaves a group that ends where the closing bracket does. -/
theorem closeGroup_checks {closing : Bracket} {span : Span} {waiting : List Pending}
    {operands : List Expr} (h : OperandsPlaced text stop operands)
    (hw : ∀ p ∈ waiting, p.Placed text stop) (hspan : span.Fits text) (hle : stop ≤ span.start)
    (hbyte : span.stop = span.start + 1) :
    Checks text (fun x : List Expr × List Pending =>
        OperandsPlaced text span.stop x.1 ∧ ∀ p ∈ x.2, p.Placed text span.stop)
      (closeGroup closing span.stop operands waiting) := by
  -- where no bracket is open, the error marks the one byte before the stop: the closing bracket itself
  have hlast : (Span.mk (span.stop - 1) span.stop).Fits text := by
    rw [hbyte, Nat.add_sub_cancel, ← hbyte]
    exact hspan
  unfold closeGroup
  refine (reduceWhile_checks h hw).bind ?_
  rintro ⟨operands, waiting⟩ ⟨hops, hwait⟩
  match waiting, hwait with
  | .opening bracket start :: waiting, hwait =>
      obtain ⟨hopen, hstart⟩ := hwait (.opening bracket start) (.head _)
      have hgroup : (Span.mk start span.stop).Fits text :=
        ⟨by simp only; omega, hopen.start, hspan.stop⟩
      simp only
      split
      · obtain ⟨e, rest, rfl, hstop⟩ := hops.last
        refine ⟨⟨fun x hx => ?_, _, rest, rfl, rfl⟩, fun p hp => ?_⟩
        · rcases List.mem_cons.1 hx with rfl | hx
          · exact ⟨hgroup, Nat.le_refl _⟩
          · have hx' := hops.fits x (.tail _ hx)
            exact ⟨hx'.1, by omega⟩
        · exact (hwait p (.tail _ hp)).mono (by omega)
      · exact hgroup
  | [], _ => exact hlast
  | .binary _ _ :: _, _ => exact hlast
  | .unary _ _ :: _, _ => exact hlast

/-! ### One token of an expression -/

theorem Stacks.Placed.operandsPlaced {s : Stacks} (h : s.Placed text stop)
    (he : s.expectsOperand = false) : OperandsPlaced text stop s.operands := ⟨h.fits, h.last he⟩

theorem Stacks.Placed.fits_mono {s : Stacks} {stop' : Nat} (h : s.Placed text stop)
    (hle : stop ≤ stop') : ∀ e ∈ s.operands, e.span.Fits text ∧ e.span.stop ≤ stop' :=
  fun e he => ⟨(h.fits e he).1, Nat.le_trans (h.fits e he).2 hle⟩

theorem Stacks.Placed.waiting_mono {s : Stacks} {stop' : Nat} (h : s.Placed text stop)
    (hle : stop ≤ stop') : ∀ p ∈ s.waiting, p.Placed text stop' :=
  fun p hp => (h.waiting p hp).mono hle

/-- Where an operand is expected, all errors point at the next token. -/
theorem Stacks.shiftOperand_error {s : Stacks} {c : Cursor} {e : SyntaxError}
    (h : s.shiftOperand c = .error e) : e.span = c.span := by
  unfold Stacks.shiftOperand at h
  split at h <;> repeat' split at h
  all_goals
      cases h
      try rfl

theorem isBracket_of_opening {c : Cursor} {b : Bracket} (h : lead? c = some (.opening b)) :
    c.current.isBracket = true := by
  unfold lead? at h
  split at h
  case h_8 hc | h_9 hc =>
      rw [hc]
      rfl
  case h_1 | h_2 =>
      obtain ⟨x, -, hx⟩ := Option.map_eq_some_iff.1 h
      cases hx
  case h_5 => split at h <;> cases h
  all_goals cases h

theorem Stacks.shiftOperand_checks {s : Stacks} {c : Cursor} (hc : c.Placed text)
    (hs : s.Placed text c.lastEnd) (he : s.expectsOperand = true) :
    Checks text (fun s' => c.current ≠ .eof ∧ s'.Placed text c.step.lastEnd)
      (s.shiftOperand c) := by
  have hlead := Climb.shiftOperand_lead s c
  cases hl : lead? c with
  | none =>
      rw [hl] at hlead
      obtain ⟨err, herr⟩ := hlead
      rw [herr]
      show err.span.Fits text
      rw [Stacks.shiftOperand_error herr]
      exact hc.span
  | some lead =>
      have hne : c.current ≠ .eof := fun h => absurd (lead?_eof h) (by simp [hl])
      have hend := Cursor.lastEnd_step hne
      have hle : c.lastEnd ≤ c.step.lastEnd := by
        have h₁ := hc.lastEnd_le
        have h₂ := hc.span.le
        omega
      have hfits := hs.fits_mono hle
      have hwait := hs.waiting_mono hle
      rw [hl] at hlead
      cases lead with
      | atom e =>
          rw [show s.shiftOperand c = _ from hlead]
          have hspan : e.span = c.span := (lead?_single hl).2.1
          refine ⟨hne, fun x hx => ?_, fun _ => ⟨e, s.operands, rfl, ?_⟩, hwait⟩
          · rcases List.mem_cons.1 hx with rfl | hx
            · rw [hspan, hend]
              exact ⟨hc.span, Nat.le_refl _⟩
            · exact hfits x hx
          · rw [hspan, hend]
      | unary op =>
          rw [show s.shiftOperand c = _ from hlead]
          refine ⟨hne, hfits, fun h => absurd (he.symm.trans h) (by simp), fun p hp => ?_⟩
          rcases List.mem_cons.1 hp with rfl | hp
          · exact ⟨hc.span.start, hend ▸ hc.span.le⟩
          · exact hwait p hp
      | opening b =>
          rw [show s.shiftOperand c = _ from hlead]
          have hb := isBracket_of_opening hl
          refine ⟨hne, hfits, fun h => absurd (he.symm.trans h) (by simp), fun p hp => ?_⟩
          rcases List.mem_cons.1 hp with rfl | hp
          · refine ⟨?_, hend ▸ hc.span.le⟩
            rw [← hc.span_bracket hb]
            exact hc.span
          · exact hwait p hp

theorem Stacks.closeBracket_checks {s : Stacks} {c : Cursor} {b : Bracket} (hc : c.Placed text)
    (hs : s.Placed text c.lastEnd) (he : s.expectsOperand = false) (hb : c.current = b.closing) :
    Checks text (fun s' => s'.Placed text c.step.lastEnd) (s.closeBracket b c.span.stop) := by
  have hbracket : c.current.isBracket = true := by
    rw [hb]
    cases b <;> rfl
  rw [Cursor.lastEnd_step (hb ▸ Climb.closing_ne_eof b)]
  unfold Stacks.closeBracket
  refine (closeGroup_checks (hs.operandsPlaced he) hs.waiting hc.span hc.lastEnd_le
    (hc.span_bracket hbracket)).bind ?_
  rintro ⟨operands, waiting⟩ ⟨hops, hwait⟩
  exact ⟨hops.fits, fun _ => hops.last, hwait⟩

theorem Stacks.pushBinary_checks {s : Stacks} {c : Cursor} {op : BinaryOp} (hc : c.Placed text)
    (hs : s.Placed text c.lastEnd) (he : s.expectsOperand = false) (hop : c.current = .op op) :
    Checks text (fun s' => s'.Placed text c.step.lastEnd) (s.pushBinary op c.span) := by
  have hle : c.lastEnd ≤ c.step.lastEnd := by
    rw [Cursor.lastEnd_step (by simp [hop])]
    exact Nat.le_trans hc.lastEnd_le hc.span.le
  unfold Stacks.pushBinary
  refine (reduceWhile_checks (hs.operandsPlaced he) hs.waiting).bind ?_
  rintro ⟨operands, waiting⟩ ⟨hops, hwait⟩
  refine ⟨fun e h => ⟨(hops.fits e h).1, Nat.le_trans (hops.fits e h).2 hle⟩,
    fun h => (nomatch h), ?_⟩
  intro p hp
  rcases List.mem_cons.1 hp with rfl | hp
  · exact hc.span
  · exact (hwait p hp).mono hle

/-- **What one token of an expression does**: operands and what waits stay in their places, and an error
points into the text. -/
theorem Stacks.shift_checks {s : Stacks} {c : Cursor} (hc : c.Placed text)
    (hs : s.Placed text c.lastEnd) :
    Checks text (fun o => match o with
        | some s' => c.current ≠ .eof ∧ s'.Placed text c.step.lastEnd
        | none => s.expectsOperand = false)
      (s.shift c) := by
  unfold Stacks.shift
  cases he : s.expectsOperand with
  | true => exact (Stacks.shiftOperand_checks hc hs he).map fun _ h => h
  | false =>
      rw [if_neg (by simp)]
      unfold Stacks.shiftOperator?
      split
      · rename_i hb
        split
        · exact (Stacks.closeBracket_checks (b := .round) hc hs he hb).map
            fun _ h => ⟨by simp [hb], h⟩
        · rfl
      · rename_i hb
        split
        · exact (Stacks.closeBracket_checks (b := .square) hc hs he hb).map
            fun _ h => ⟨by simp [hb], h⟩
        · rfl
      · rename_i op hop
        exact (Stacks.pushBinary_checks hc hs he hop).map fun _ h => ⟨by simp [hop], h⟩
      · rfl

theorem Stacks.finish_checks {s : Stacks} (hs : s.Placed text stop)
    (he : s.expectsOperand = false) (here : Span) :
    Checks text (fun _ => True) (s.finish here) := by
  unfold Stacks.finish
  refine (reduceAll_checks (hs.operandsPlaced he) hs.waiting).bind fun operands hops => ?_
  obtain ⟨e, rest, rfl, -⟩ := hops.last
  show Checks text _ (if rest.isEmpty then _ else _)
  split
  · trivial
  · exact (hops.fits e (.head _)).1

/-! ### Parsers -/

/-- The parser stopped before tokens in their places, or with an error that points into the text. -/
def Points {α : Type} (text : List Char) : EStateM.Result SyntaxError Cursor α → Prop
  | .ok _ d => d.Placed text
  | .error e _ => e.span.Fits text

/-- The parser keeps tokens in their places, and its errors point into the text. -/
def Keeps {α : Type} (text : List Char) (p : Parse α) : Prop :=
  ∀ c, c.Placed text → Points text (p c)

/-- Where an expression ends, the stacks give it or an error that points into the text. -/
theorem Stacks.finish_points {s : Stacks} {c : Cursor} (hc : c.Placed text)
    (hs : s.Placed text c.lastEnd) (he : s.expectsOperand = false) :
    Points text (match s.finish c.span with
      | .ok e => EStateM.Result.ok e c
      | .error e => .error e c) := by
  have hfinish := Stacks.finish_checks hs he c.span
  cases h : s.finish c.span with
  | ok e => exact hc
  | error e =>
      rw [h] at hfinish
      exact hfinish

/-- **Reading an expression**: what holds of one token holds of all. -/
theorem Stacks.read_points (tokens : List Spanned) (lastEnd : Nat) (s : Stacks)
    (hc : (Cursor.mk tokens lastEnd).Placed text) (hs : s.Placed text lastEnd) :
    Points text (s.read tokens lastEnd) := by
  induction tokens generalizing lastEnd s with
  | nil =>
      have hshift := Stacks.shift_checks hc hs
      unfold Stacks.read
      cases h : s.shift ⟨[], lastEnd⟩ with
      | error e =>
          rw [h] at hshift
          exact hshift
      | ok o =>
          rw [h] at hshift
          cases o with
          | some s' => exact absurd rfl hshift.1
          | none => exact Stacks.finish_points hc hs hshift
  | cons t rest ih =>
      have hshift := Stacks.shift_checks hc hs
      unfold Stacks.read
      cases h : s.shift ⟨t :: rest, lastEnd⟩ with
      | error e =>
          rw [h] at hshift
          exact hshift
      | ok o =>
          rw [h] at hshift
          cases o with
          | some s' => exact ih t.span.stop s' hc.step hshift.2
          | none => exact Stacks.finish_points hc hs hshift

theorem keeps_expression : Keeps text Parse.expression := by
  intro c hc
  refine Stacks.read_points c.tokens c.lastEnd .start hc ⟨?_, fun h => (nomatch h), ?_⟩
  · exact fun e he => absurd he (by simp [Stacks.start])
  · exact fun p hp => absurd hp (by simp [Stacks.start])

/-! ### Sequences and repetitions -/

variable {α β : Type}

theorem keeps_pure (a : α) : Keeps text (pure a : Parse α) := fun _ hc => hc

theorem keeps_bind {p : Parse α} {f : α → Parse β} (hp : Keeps text p)
    (hf : ∀ a, Keeps text (f a)) : Keeps text (p >>= f) := by
  intro c hc
  have h := hp c hc
  show Points text (EStateM.bind p f c)
  unfold EStateM.bind
  cases hpc : p c with
  | ok a d =>
      rw [hpc] at h
      exact hf a d h
  | error e d =>
      rw [hpc] at h
      exact h

theorem keeps_get {f : Cursor → Parse β} (hf : ∀ c, Keeps text (f c)) : Keeps text (get >>= f) :=
  fun c hc => hf c c hc

theorem keeps_map {p : Parse α} (f : α → β) (hp : Keeps text p) : Keeps text (f <$> p) := by
  rw [map_eq_pure_bind]
  exact keeps_bind hp fun a => keeps_pure (f a)

theorem keeps_step : Keeps text Parse.step := fun _ hc => hc.step

theorem keeps_lastEnd : Keeps text Parse.lastEnd := fun _ hc => hc

theorem keeps_failHere (fault : SyntaxFault) : Keeps text (Parse.failHere fault : Parse α) :=
  fun _ hc => hc.span

theorem keeps_ite {b : Prop} [Decidable b] {p q : Parse α} (hp : Keeps text p) (hq : Keeps text q) :
    Keeps text (if b then p else q) := by
  split
  · exact hp
  · exact hq

theorem keeps_expect (t : Token) : Keeps text (Parse.expect t) := by
  rintro ⟨_ | ⟨u, rest⟩, lastEnd⟩ hc
  · exact hc.span
  · -- the faults are reported at the token that was looked at, which is the one of this cursor
    refine keeps_ite (b := u.token = t) ?_ (keeps_ite ?_ ?_) _ hc
    · exact keeps_bind keeps_step fun _ => keeps_pure _
    · exact fun _ _ => hc.fits u (.head _)
    · exact fun _ _ => hc.fits u (.head _)

theorem keeps_name : Keeps text Parse.name := by
  refine keeps_get fun c => ?_
  split
  · exact keeps_bind keeps_step fun _ => keeps_pure _
  · exact keeps_failHere _

theorem keeps_assign : Keeps text Parse.assign := by
  refine keeps_get fun c => keeps_ite ?_ (keeps_expect _)
  exact keeps_bind keeps_step fun _ => keeps_pure _

theorem keeps_repeatF {more : Cursor → Bool} {part : Parse α} (h : Keeps text part) (fuel : Nat) :
    Keeps text (Parse.repeatF more part fuel) := by
  induction fuel with
  | zero => exact keeps_pure []
  | succ fuel ih =>
      refine keeps_get fun c => keeps_ite ?_ (keeps_pure [])
      exact keeps_bind h fun a => keeps_bind ih fun rest => keeps_pure (a :: rest)

theorem keeps_repeatWhile {more : Cursor → Bool} {part : Parse α} (h : Keeps text part) :
    Keeps text (Parse.repeatWhile more part) :=
  keeps_get fun _ => keeps_repeatF h _

theorem keeps_commaList {part : Parse α} (h : Keeps text part) :
    Keeps text (Parse.commaList part) := by
  refine keeps_bind h fun first => ?_
  refine keeps_bind (keeps_repeatWhile (keeps_bind keeps_step fun _ => h)) fun rest => ?_
  exact keeps_pure (first :: rest)

/-! ### Statements -/

theorem keeps_declared : Keeps text Parse.declared := by
  refine keeps_bind keeps_name fun n => keeps_get fun c => ?_
  refine keeps_ite (keeps_bind keeps_step fun _ => ?_) (keeps_pure _)
  exact keeps_bind keeps_expression fun e => keeps_pure _

theorem keeps_dataType : Keeps text Parse.dataType := by
  refine keeps_get fun c => ?_
  split
  · exact keeps_bind keeps_step fun _ => keeps_pure _
  · exact keeps_failHere _

theorem keeps_declaration : Keeps text Parse.declaration := by
  refine keeps_bind (keeps_expect _) fun first => keeps_bind keeps_dataType fun type => ?_
  refine keeps_bind (keeps_commaList keeps_declared) fun vars => ?_
  exact keeps_bind keeps_lastEnd fun stop => keeps_pure _

theorem keeps_target : Keeps text Parse.target :=
  keeps_bind keeps_name fun n => keeps_bind keeps_assign fun _ => keeps_pure n

theorem keeps_assignment : Keeps text Parse.assignment := by
  refine keeps_bind keeps_target fun first => ?_
  refine keeps_bind (keeps_repeatWhile keeps_target) fun others => ?_
  exact keeps_bind keeps_expression fun value => keeps_pure _

theorem keeps_input : Keeps text Parse.input := by
  refine keeps_bind (keeps_expect _) fun first => keeps_bind (keeps_expect _) fun _ => ?_
  refine keeps_bind (keeps_commaList keeps_name) fun names => ?_
  exact keeps_bind keeps_lastEnd fun stop => keeps_pure _

theorem keeps_itemsF (fuel : Nat) (escaped : Bool) : Keeps text (Parse.itemsF fuel escaped) := by
  induction fuel generalizing escaped with
  | zero => exact keeps_pure []
  | succ fuel ih =>
      refine keeps_get fun c => ?_
      split
      · exact keeps_pure []
      · exact keeps_bind keeps_step fun _ => ih _
      · exact keeps_bind keeps_step fun _ => ih _
      · exact keeps_bind keeps_step fun _ => keeps_bind (ih _) fun rest => keeps_pure _
      · exact keeps_bind keeps_expression fun e => keeps_bind (ih _) fun rest => keeps_pure _

theorem keeps_print : Keeps text Parse.print := by
  refine keeps_bind (keeps_expect _) fun first => keeps_bind (keeps_expect _) fun _ => ?_
  refine keeps_bind (keeps_get fun c => keeps_itemsF _ _) fun items => ?_
  exact keeps_bind keeps_lastEnd fun stop => keeps_pure _

theorem keeps_loopStep : Keeps text Parse.loopStep := by
  refine keeps_get fun c => ?_
  split
  · exact keeps_bind keeps_step fun _ => keeps_pure _
  · exact keeps_failHere _

section

variable {statement : Parse Stmt} (h : Keeps text statement)

include h

theorem keeps_blockOf : Keeps text (Parse.blockOf statement) := by
  refine keeps_bind (keeps_expect _) fun first => keeps_bind (keeps_expect _) fun _ => ?_
  refine keeps_bind (keeps_repeatWhile h) fun body => ?_
  exact keeps_bind (keeps_expect _) fun last => keeps_pure _

theorem keeps_branchOf : Keeps text (Parse.branchOf statement) := by
  refine keeps_bind (keeps_expect _) fun _ => keeps_bind keeps_expression fun test => ?_
  refine keeps_bind (keeps_expect _) fun _ => ?_
  exact keeps_bind (keeps_blockOf h) fun body => keeps_pure _

theorem keeps_lastBranchOf : Keeps text (Parse.lastBranchOf statement) := by
  refine keeps_get fun c => keeps_ite ?_ (keeps_pure _)
  refine keeps_bind keeps_step fun _ => keeps_bind keeps_step fun _ => ?_
  exact keeps_bind (keeps_blockOf h) fun body => keeps_pure _

theorem keeps_conditionalOf : Keeps text (Parse.conditionalOf statement) := by
  have hbranch := keeps_branchOf h
  refine keeps_bind (keeps_expect _) fun first => keeps_bind hbranch fun x => ?_
  refine keeps_bind (keeps_repeatWhile ?_) fun others => ?_
  · exact keeps_bind keeps_step fun _ => keeps_bind keeps_step fun _ => hbranch
  · refine keeps_bind (keeps_lastBranchOf h) fun last => ?_
    exact keeps_bind keeps_lastEnd fun stop => keeps_pure _

theorem keeps_loopOf : Keeps text (Parse.loopOf statement) := by
  refine keeps_bind (keeps_expect _) fun first => keeps_bind (keeps_expect _) fun _ => ?_
  refine keeps_bind (keeps_expect _) fun _ => keeps_bind keeps_assignment fun start => ?_
  refine keeps_bind (keeps_expect _) fun _ => keeps_bind keeps_expression fun test => ?_
  refine keeps_bind (keeps_expect _) fun _ => keeps_bind keeps_name fun counter => ?_
  refine keeps_bind keeps_loopStep fun step => keeps_bind (keeps_expect _) fun _ => ?_
  exact keeps_bind (keeps_blockOf h) fun body => keeps_pure _

end

theorem keeps_statementF (fuel : Nat) : Keeps text (Parse.statementF fuel) := by
  induction fuel with
  | zero => exact keeps_failHere _
  | succ fuel ih =>
      refine keeps_get fun c => ?_
      split
      · exact keeps_declaration
      · exact keeps_map _ keeps_assignment
      · exact keeps_print
      · exact keeps_input
      · exact keeps_conditionalOf ih
      · exact keeps_loopOf ih
      all_goals exact keeps_failHere _

/-- **Reading a statement** keeps tokens in their places, and its errors point into the text. -/
theorem keeps_statement : Keeps text Parse.statement := keeps_get fun _ => keeps_statementF _

/-! ### Programs -/

theorem keeps_sugod : Keeps text Parse.sugod :=
  keeps_get fun _ => keeps_ite (keeps_expect _) (keeps_failHere _)

theorem keeps_katapusan : Keeps text Parse.katapusan :=
  keeps_get fun _ => keeps_ite (keeps_failHere _) (keeps_expect _)

theorem keeps_program : Keeps text Parse.program := by
  refine keeps_bind keeps_sugod fun first => ?_
  refine keeps_bind (keeps_repeatWhile keeps_statement) fun body => ?_
  exact keeps_bind keeps_katapusan fun last => keeps_pure _

theorem skipToEnd_placed {tokens : List Spanned} {lastEnd : Nat}
    (hc : (Cursor.mk tokens lastEnd).Placed text) :
    (Cursor.skipToEnd tokens lastEnd).Placed text ∧
      lastEnd ≤ (Cursor.skipToEnd tokens lastEnd).lastEnd := by
  induction tokens generalizing lastEnd with
  | nil => exact ⟨hc, Nat.le_refl _⟩
  | cons t rest ih =>
      rw [Cursor.skipToEnd]
      split
      · exact ⟨hc, Nat.le_refl _⟩
      · obtain ⟨hplaced, hle⟩ := ih hc.step
        refine ⟨hplaced, ?_⟩
        have h₁ := hc.lastEnd_le
        have h₂ := hc.span.le
        simp only [Cursor.span] at h₁ h₂
        omega

theorem keeps_trailing : Keeps text Parse.trailing := by
  intro c hc
  show Points text ((if c.current = .eof then pure none else _ : Parse (Option Span)) c)
  split
  · exact hc
  · exact (skipToEnd_placed hc).1

/-- **Reading a program** and what stands behind it keeps tokens in their places, and its errors point
into the text. -/
theorem keeps_whole : Keeps text Parse.whole :=
  keeps_bind keeps_program fun _ => keeps_bind keeps_trailing fun _ => keeps_pure _

/-- **The span of a syntax error fits the text.** -/
theorem parseTokens_error_fits {tokens : List Spanned} {e : SyntaxError}
    (ht : Tiling false 0 text tokens) (h : parseTokens tokens = .error e) : e.span.Fits text := by
  have hpoints := keeps_whole _ ht.placed
  unfold parseTokens Parse.runOn EStateM.run at h
  cases hwhole : Parse.whole (.start tokens) with
  | ok p d =>
      rw [hwhole] at h
      cases h
  | error e' d =>
      rw [hwhole] at h hpoints
      cases h
      exact hpoints

/-- The span of the tokens behind a program fits the text. -/
theorem trailing_fits {c : Cursor} {span : Span} (hc : c.Placed text) (h : c.trailing = some span) :
    span.Fits text := by
  unfold Cursor.trailing at h
  split at h
  case isTrue => cases h
  case isFalse hne =>
      obtain ⟨t, rest, ht, hk, hspan, hstep⟩ := Cursor.tokens_of_current hne
      cases h
      have hskip : Cursor.skipToEnd c.tokens c.lastEnd = Cursor.skipToEnd rest t.span.stop := by
        rw [ht, Cursor.skipToEnd, if_neg (by rwa [hk])]
      obtain ⟨hplaced, hle⟩ := skipToEnd_placed (hstep ▸ hc.step)
      have hspan_le := hc.span.le
      rw [← hspan] at hspan_le ⊢
      rw [hskip]
      exact ⟨Nat.le_trans hspan_le hle, hspan ▸ hc.span.start, hplaced.lastEnd⟩

end

end BisayaLang
