/-
**Statements can be completed.**

Where the parser stops in a statement with an error, what it has read of the statement is the start of
some statement: every parser can be completed, from the parts of a declaration up to loops.  A statement
that was not begun is replaced by an empty print statement, since its first word ends whatever stands
before it, also inside an escape.

Main definitions:

* `BisayaLang.StmtReads`, `BisayaLang.BodyReads`, `BisayaLang.BlockReads` — a statement, the statements of
  a body or a block stand between two cursors;
* `BisayaLang.ItemsRepair`, `BisayaLang.BodyRepair` — tokens that complete the items of a print statement,
  or the statements of a body.

Main results:

* `BisayaLang.fixes_declaration`, `BisayaLang.fixes_assignment`, `BisayaLang.itemsF_repair` — statements
  without blocks;
* `BisayaLang.fixes_body`, `BisayaLang.fixes_conditional`, `BisayaLang.fixes_loop` — the statements of a
  body, and what holds blocks;
* `BisayaLang.fixes_statementF` — **any statement can be completed**.
-/

import BisayaLang.Proofs.Grammar.Relocation
import BisayaLang.Proofs.Grammar.Repair

set_option relaxedAutoImplicit false
set_option autoImplicit false

namespace BisayaLang

open Climb Parse

/-! ### Declarations, assignments, input -/

section

variable {n : Nat}

/-- A statement stands there. -/
def StmtReads (c d : Cursor) : Prop := ∃ s, Derives c (.stmt s) d

/-- The first value of a declared variable stands there, if it has one. -/
def FirstValue (c d : Cursor) : Prop :=
  (c.current.isAssign = false ∧ d = c) ∨ (c.current.isAssign = true ∧ Stretch ExprReads c.step d)

theorem fixes_declared : Fixes n declared (Stretch DeclaredReads) Ends := by
  have hvalue : ∀ x : Name, Fixes n (do
      if (← get).current.isAssign then
        step
        let value ← expression
        return (⟨x, some value⟩ : Declared)
      else return ⟨x, none⟩) FirstValue Ends := by
    intro x
    refine ⟨⟨[], fun z lastEnd hz => ⟨⟨z, lastEnd⟩, .inl ⟨?_, rfl⟩, rfl⟩⟩, fun c hc => ?_⟩
    · rw [Cursor.current_eq]
      exact hz.assign
    · cases ha : c.current.isAssign with
      | false =>
          unfold Repairs
          rw [get_bind, ha]
          exact .inl ⟨ha, rfl⟩
      | true =>
          have hexpr := fixes_expression.run c.step (Nat.le_trans (Climb.length_step_le c) hc)
          have hstill := (hexpr.still fun e m => ⟨(⟨x, some e⟩ : Declared), rfl⟩).step
            (isAssign_ne_eof ha)
          unfold Repairs
          rw [get_bind, ha]
          exact hstill.mono (fun c' d h => .inr ⟨by rw [h.1, ha], h.2⟩) fun _ h => h
  refine (fixes_name.andThen local_name.carries hvalue fun _ _ _ _ => trivial).mono ?_ fun _ h => h
  rintro c d ⟨m, ⟨x, hx⟩, ⟨ha, rfl⟩ | ⟨ha, e, he⟩⟩
  · exact ⟨_, .plain hx ha⟩
  · exact ⟨_, .value hx ha he⟩

/-- What a list with commas may be followed by, a statement may be. -/
theorem Boundary.list {ts : List Token} (h : Boundary ts) :
    Ends ts ∧ ts.headD .eof ≠ .mark .comma := ⟨h.ends, h.ne_comma⟩

theorem fixes_declaration : Fixes n declaration StmtReads Boundary := by
  have : Nonempty Declared := ⟨⟨default, none⟩⟩
  have hvars := fixes_commaList local_declared (fun _ _ _ h => h.length_lt) (fixes_declared (n := n))
  have h := Fixes.behind (t := .word .mugna) (by simp) fun first : Span =>
    fixes_dataType.andThen (carries_oneToken (by simp))
      (fun type => hvars.still fun vars m =>
        ⟨Stmt.declaration type vars ⟨first.start, m.lastEnd⟩, rfl⟩) fun _ _ _ _ => trivial
  refine h.mono ?_ fun _ => Boundary.list
  rintro c d ⟨_, ⟨hc, rfl⟩, _, ⟨⟨type, ht⟩, rfl⟩, vars, hv⟩
  exact ⟨_, .declaration hc ht hv⟩

theorem fixes_input : Fixes n input StmtReads Boundary := by
  have hname : Fixes n name (Stretch NameReads) Ends :=
    fixes_name.mono (fun _ _ h => h) fun _ _ => trivial
  have hnames := fixes_commaList (local_name.mono fun _ _ => trivial) (fun _ _ _ h => h.length_lt) hname
  have h := Fixes.behind (t := .word .dawat) (by simp) fun first : Span =>
    Fixes.behind (t := .mark .colon) (by simp) fun _ =>
      hnames.still fun names m => ⟨Stmt.input names ⟨first.start, m.lastEnd⟩, rfl⟩
  refine h.mono ?_ fun _ => Boundary.list
  rintro c d ⟨_, ⟨hc, rfl⟩, _, ⟨ht, rfl⟩, names, hn⟩
  exact ⟨_, .input hc ht hn⟩

theorem fixes_target : Fixes n target (Stretch TargetReads) fun _ => True := by
  have h := fixes_name.andThen local_name.carries
    (fun x => (fixes_assign (n := n)).still fun _ m => ⟨x, rfl⟩) fun _ _ _ _ => trivial
  refine h.mono ?_ fun _ h => h
  rintro c d ⟨m, ⟨x, hx⟩, ha, rfl⟩
  obtain rfl := hx.2.2
  exact ⟨x, hx, ha, rfl⟩

/-- An expression that starts with a name goes on with an operator, or ends. -/
theorem Reads.second {min : Nat} {c d : Cursor} {e : Expr} (h : Reads min c e d)
    (hc : c.current.isName = true) : c.step = d ∨ ∃ op, c.step.current = .op op := by
  have hlead : ∀ {c : Cursor} {l : Lead}, c.current.isName = true → lead? c = some l →
      ∃ e, l = .atom e := by
    intro c l hn hl
    unfold lead? at hl
    split at hl <;> simp_all [Token.isName]
    exact ⟨_, hl.symm⟩
  induction h with
  | atom _ => exact .inl rfl
  | unary hl _ _ _ =>
      obtain ⟨e, he⟩ := hlead hc hl
      cases he
  | group hl _ _ _ =>
      obtain ⟨e, he⟩ := hlead hc hl
      cases he
  | binary _ hop _ _ _ ihl _ =>
      rcases ihl hc with heq | hop'
      · exact .inr ⟨_, heq ▸ hop⟩
      · exact .inr hop'

/-- A whole expression is no target. -/
theorem ExprReads.not_atTarget {c d : Cursor} {e : Expr} (h : ExprReads c e d) (hd : Ends d.kinds) :
    c.atTarget = false := by
  cases hn : c.current.isName with
  | false => rw [Cursor.atTarget, hn, Bool.false_and]
  | true =>
      rw [Cursor.atTarget, hn, Cursor.peek_eq, Bool.true_and]
      rcases h.1.second hn with heq | ⟨op, hop⟩
      · rw [heq, Cursor.current_eq]
        exact hd.assign
      · rw [hop]
        rfl

/-- The parts of an assignment, one behind the other. -/
abbrev AssignmentParts : Cursor → Cursor → Prop :=
  Seq (Stretch TargetReads) (Seq (Stretch (Many Cursor.atTarget TargetReads)) (Stretch ExprReads))

theorem AssignmentParts.reads {c d : Cursor} (h : AssignmentParts c d) :
    ∃ a, AssignmentReads c a d := by
  obtain ⟨_, ⟨_, ht⟩, _, ⟨_, hts⟩, _, he⟩ := h
  exact ⟨_, .intro ht hts he⟩

theorem carries_target : Carries (Stretch TargetReads) fun _ => True where
  leadsTo := fun ⟨_, h⟩ => h.laid.leadsTo
  splice := by
    rintro c d new ⟨x, ht⟩ -
    have htarget : c.atTarget = true := atTarget_of (by rw [ht.1.1]; rfl) ht.2.1
    exact ⟨x, (local_target.splice ⟨htarget, ht⟩ trivial).2⟩

/-- No further target stands before an expression. -/
theorem not_atTarget_of_expr {c m : Cursor} (h : Stretch ExprReads c m) (hm : Ends m.kinds) :
    True ∧ ∀ c' : Cursor, c'.kinds = c.kinds → c'.atTarget = false := by
  obtain ⟨e, he⟩ := h
  refine ⟨trivial, fun c' hc => ?_⟩
  rw [atTarget_eq, hc, ← atTarget_eq]
  exact he.not_atTarget hm

theorem carries_assignment : Carries AssignmentParts Ends :=
  carries_target.seq ((carries_many local_target fun _ _ => trivial).seq local_expr.carries
    fun _ _ => not_atTarget_of_expr) fun _ _ _ _ => trivial

theorem fixes_assignment : Fixes n assignment AssignmentParts Ends := by
  have htargets : Fixes n (repeatWhile Cursor.atTarget target)
      (Stretch (Many Cursor.atTarget TargetReads))
      fun ts => True ∧ ∀ c : Cursor, c.kinds = ts → c.atTarget = false := by
    refine fixes_repeatWhile (fun _ => atTarget_ne_eof) local_target (fun _ _ => trivial)
      (fun _ _ _ _ h => h.length_lt) fun c hn hc => ?_
    refine repairs_of (fun a m h => ⟨hc, (fixes_target.run c hn).ok h⟩) fun e d h => ?_
    -- a target that is announced is there
    obtain ⟨x, hx⟩ : ∃ x, TargetReads c x c.step.step := by
      obtain ⟨hname, ha⟩ := Bool.and_eq_true_iff.1 hc
      rw [Cursor.peek_eq] at ha
      cases hcur : c.current with
      | name s => exact ⟨⟨s, c.span⟩, ⟨hcur, rfl, rfl⟩, ha, rfl⟩
      | _ => simp [hcur, Token.isName] at hname
    rw [target_eq_ok.2 hx] at h
    cases h
  refine fixes_target.andThen carries_target (fun x => ?_) fun _ _ _ _ => trivial
  refine htargets.andThen (carries_many local_target fun _ _ => trivial) (fun xs => ?_)
    fun _ _ => not_atTarget_of_expr
  exact fixes_expression.still fun e m =>
    ⟨(⟨x :: xs, e, ⟨x.span.start, e.span.stop⟩⟩ : Assignment), rfl⟩

/-! ### Printing -/

theorem itemsF_stop {fuel : Nat} {escaped : Bool} {c : Cursor} (h : itemRule escaped c = .stop) :
    itemsF fuel escaped c = .ok [] c := by
  cases fuel with
  | zero => rfl
  | succ fuel => rw [itemsF, get_bind, h]; rfl

/-- Tokens that neither assign to what stands before them nor go on with it. -/
def Plain (ts : List Token) : Prop :=
  (ts.headD .eof).isAssign = false ∧ ∀ op, ts.headD .eof ≠ .op op

theorem Plain.isArithmetic_eq {ts : List Token} (h : Plain ts) :
    (ts.headD .eof).isArithmetic = false := by
  cases ht : ts.headD .eof with
  | op op => exact absurd ht (h.2 op)
  | _ => rfl

theorem Ends.plain {ts : List Token} (h : Ends ts) : Plain ts := ⟨h.assign, h.operator⟩

/-- The tokens complete the items that were read.  If none was read, none is needed. -/
structure ItemsRepair (escaped : Bool) (c d : Cursor) (w : List Token) : Prop where
  leadsTo : c.LeadsTo d
  atOnce : c.upTo d = [] → w = []
  plain : ∀ ts, Ends ts → Plain (w ++ ts)
  completes : Completes (Stretch (Items escaped)) Boundary c d w

/-- What completes the items behind a token completes them with it. -/
theorem ItemsRepair.cons {escaped escaped' : Bool} {c d : Cursor} {w : List Token}
    (h : ItemsRepair escaped' c.step d w) (hne : itemRule escaped c ≠ .stop)
    (hexpr : itemRule escaped c ≠ .expression)
    (hi : ∀ {c' m : Cursor}, itemRule escaped c' = itemRule escaped c →
      Stretch (Items escaped') c'.step m → Stretch (Items escaped) c' m) : ItemsRepair escaped c d w := by
  have hc := itemRule_ne_eof hne
  refine ⟨c.leadsTo_step.trans h.leadsTo, fun hnil => ?_, h.plain, fun z hz => ?_⟩
  · obtain ⟨t, ht, -⟩ := Cursor.upTo_eq_cons hc h.leadsTo
    rw [ht] at hnil
    cases hnil
  · obtain ⟨m, hm, hz'⟩ := h.completes z hz
    have hplain : Plain ((unplaced w ++ z).map Spanned.token) := by
      rw [map_token_unplaced_append]
      exact h.plain _ hz.ends
    refine ⟨m, hi (itemRule_splice hne hexpr h.leadsTo hplain.1 hplain.isArithmetic_eq) ?_, hz'⟩
    rw [Cursor.step_splice hc h.leadsTo]
    exact hm

/-- An expression in a print statement that is not complete can be completed, if it was begun; if not,
the statement ends before it. -/
theorem itemsRepair_expression {c d : Cursor} {err : SyntaxError}
    (hr : itemRule false c = .expression) (h : expression c = .error err d) :
    err.PointsAt d ∧ ∃ w, ItemsRepair false c d w := by
  obtain ⟨hp, hto, w, hplain, hw⟩ := expression_repair h
  refine ⟨hp, ?_⟩
  by_cases hnil : c.upTo d = []
  · obtain rfl := Cursor.eq_of_upTo hto hnil
    refine ⟨[], .refl c, fun _ => rfl, fun ts hts => hts.plain, fun z hz => ?_⟩
    refine ⟨⟨z, c.lastEnd⟩, ⟨[], ?_⟩, rfl⟩
    rw [Cursor.splice_self]
    exact .stop (hz.itemRule_eq rfl)
  · refine ⟨w, hto, fun h => absurd h hnil, hplain, fun z hz => ?_⟩
    obtain ⟨m, ⟨e, he⟩, rfl⟩ := hw z hz.ends
    refine ⟨m, ⟨_, .expression (itemRule_eq_expression.2 ⟨rfl, ?_⟩) he (.stop (hz.itemRule_eq rfl))⟩,
      rfl⟩
    have hc : c.current ≠ .eof := @itemRule_ne_eof false c (by simp [hr])
    have hd := hto.of_step hnil
    rw [Cursor.current_splice hc hd, Cursor.peek_eq, Cursor.step_splice hc hd]
    rcases (itemRule_eq_expression.1 hr).2 with hl | ⟨ho, ha⟩
    · exact .inl hl
    · refine .inr ⟨ho, ?_⟩
      rw [Cursor.peek_eq] at ha
      obtain ⟨op, hop⟩ : ∃ op, c.step.current = .op op := by
        cases hcur : c.step.current with
        | op op => exact ⟨op, rfl⟩
        | _ => simp [hcur, Token.isArithmetic] at ha
      rcases expression_error_beyond h ho hop with rfl | hbeyond
      · exact absurd (Cursor.upTo_self _) hnil
      · -- the operator was read, so that it still stands there
        obtain ⟨t, ht, -⟩ := Cursor.upTo_eq_cons (by simp [hop]) hbeyond
        rw [Cursor.current_splice_of_ne hd (by simp [ht])]
        exact ha

/-- An item that is an expression stands before items that can be completed. -/
theorem ItemsRepair.behindExpression {c m d : Cursor} {e : Expr} {w : List Token}
    (h : ItemsRepair false m d w) (hr : itemRule false c = .expression) (he : ExprReads c e m)
    (hm : itemRule false m ≠ .stop) : ItemsRepair false c d w := by
  have hcm := he.1.leadsTo
  have hne : c.upTo d ≠ [] := by
    rw [Cursor.upTo_trans hcm h.leadsTo]
    simp [Cursor.upTo_ne_nil hcm he.length_lt]
  refine ⟨hcm.trans h.leadsTo, fun hnil => absurd hnil hne, h.plain, fun z hz => ?_⟩
  obtain ⟨m', ⟨is, his⟩, hz'⟩ := h.completes z hz
  have hfollows : Follows m (m.splice d (unplaced w ++ z)).kinds := by
    by_cases hnil : m.upTo d = []
    · obtain rfl := Cursor.eq_of_upTo h.leadsTo hnil
      rw [h.atOnce hnil, Cursor.splice_self]
      exact hz.ends.follows m
    · refine follows_splice h.leadsTo hnil ?_ _
      cases ht : m.atTarget with
      | false => rfl
      | true => exact absurd (itemRule_of_atTarget ht) hm
  have hread := he.splice_follows (m.splice d (unplaced w ++ z)).tokens hfollows
  rw [Cursor.splice_splice hcm h.leadsTo, Cursor.splice_self_splice] at hread
  exact ⟨m', ⟨_, .expression (he.itemRule_splice hr h.leadsTo _) hread his⟩, hz'⟩

/-- **The items of a print statement can be completed.** -/
theorem itemsF_repair (fuel : Nat) : ∀ {escaped : Bool} {c d : Cursor} {err : SyntaxError},
    itemsF fuel escaped c = .error err d → err.PointsAt d ∧ ∃ w, ItemsRepair escaped c d w := by
  induction fuel with
  | zero =>
      intro escaped c d err h
      cases h
  | succ fuel ih =>
      intro escaped c d err h
      rw [itemsF, get_bind] at h
      cases hr : itemRule escaped c with
      | stop =>
          rw [hr] at h
          cases h
      | escape on =>
          rw [hr] at h
          obtain ⟨hp, w, hw⟩ := @ih on c.step d err h
          refine ⟨hp, w, hw.cons (by simp [hr]) (by simp [hr]) ?_⟩
          rintro _ _ hrule ⟨is, hi⟩
          exact ⟨is, .escape (hrule.trans hr) hi⟩
      | skip =>
          rw [hr] at h
          obtain ⟨hp, w, hw⟩ := @ih escaped c.step d err h
          refine ⟨hp, w, hw.cons (by simp [hr]) (by simp [hr]) ?_⟩
          rintro _ _ hrule ⟨is, hi⟩
          exact ⟨is, .skip (hrule.trans hr) hi⟩
      | item i =>
          rw [hr] at h
          rcases bind_eq_error (p := itemsF fuel escaped) (c := c.step) h with h | ⟨_, _, -, h⟩
          · obtain ⟨hp, w, hw⟩ := ih h
            refine ⟨hp, w, hw.cons (by simp [hr]) (by simp [hr]) ?_⟩
            rintro _ _ hrule ⟨is, hi⟩
            exact ⟨i :: is, .item (hrule.trans hr) hi⟩
          · cases h
      | expression =>
          rw [hr] at h
          obtain ⟨rfl, -⟩ := itemRule_eq_expression.1 hr
          rcases bind_eq_error h with h | ⟨e, m, he, h⟩
          · exact itemsRepair_expression hr h
          · rcases bind_eq_error h with h | ⟨_, _, -, h⟩
            · obtain ⟨hp, w, hw⟩ := ih h
              refine ⟨hp, w, hw.behindExpression hr (expression_eq_ok.1 he) fun hstop => ?_⟩
              rw [itemsF_stop hstop] at h
              cases h
            · cases h

theorem fixes_print : Fixes n print StmtReads Boundary := by
  have hitems : Fixes n items (Stretch (Items false)) Boundary := by
    refine ⟨⟨[], fun z lastEnd hz => ⟨⟨z, lastEnd⟩, ⟨[], .stop (hz.itemRule_eq rfl)⟩, rfl⟩⟩,
      fun c _ => repairs_of (fun is m h => ⟨is, items_eq_ok.1 h⟩) fun e d h => ?_⟩
    obtain ⟨hp, w, hw⟩ := itemsF_repair c.tokens.length h
    exact ⟨hp, hw.leadsTo, w, hw.completes⟩
  have h := Fixes.behind (t := .word .ipakita) (by simp) fun first : Span =>
    Fixes.behind (t := .mark .colon) (by simp) fun _ =>
      hitems.still fun items m => ⟨Stmt.print items ⟨first.start, m.lastEnd⟩, rfl⟩
  refine h.mono ?_ fun _ h => h
  rintro c d ⟨_, ⟨hc, rfl⟩, _, ⟨ht, rfl⟩, items, hi⟩
  exact ⟨_, .print hc ht hi⟩

/-! ### The statements of a body -/

/-- The statements of a body that ends at `stop` stand there. -/
def BodyReads (stop : Token) (c d : Cursor) : Prop := ∃ ss, Derives c (.body stop ss) d

/-- A token that ends a body: the closing bracket of a block, or the last word of a program. -/
def Token.EndsBody (t : Token) : Prop := t = .mark .rbrace ∨ t = .word .katapusan

section

variable {stop : Token}

theorem Token.EndsBody.boundary (h : stop.EndsBody) {ts : List Token} (hts : ts.headD .eof = stop) :
    Boundary ts := by
  match ts with
  | [] => rcases h with rfl | rfl <;> cases hts
  | t :: ts =>
      obtain rfl : t = stop := hts
      rcases h with rfl | rfl
      · exact .brace ts
      · exact .word (by simp)

theorem Token.EndsBody.endsPrint (h : stop.EndsBody) : stop.endsPrint = true := by
  rcases h with rfl | rfl <;> rfl

theorem body_nil {c : Cursor} (h : c.kinds.headD .eof = stop) : Derives c (.body stop []) c := by
  refine .nil ?_
  rw [moreBefore, Cursor.current_eq, h]
  simp

/-- No statement starts with a token that ends a body. -/
theorem Derives.moreBefore {c d : Cursor} {s : Stmt} (h : Derives c (.stmt s) d)
    (hstop : stop.EndsBody) : moreBefore stop c = true := by
  cases h with
  | declaration hc _ _ => rcases hstop with rfl | rfl <;> simp [BisayaLang.moreBefore, hc]
  | assignment ha =>
      obtain ⟨⟨⟨hc, -, -⟩, -, -⟩, -, -⟩ := ha
      rcases hstop with rfl | rfl <;> simp [BisayaLang.moreBefore, hc]
  | print hc _ _ => rcases hstop with rfl | rfl <;> simp [BisayaLang.moreBefore, hc]
  | input hc _ _ => rcases hstop with rfl | rfl <;> simp [BisayaLang.moreBefore, hc]
  | conditional hc _ _ _ => rcases hstop with rfl | rfl <;> simp [BisayaLang.moreBefore, hc]
  | loop hh _ =>
      obtain ⟨hc, -, -, -, -, -, -, -, -, -, -⟩ := hh
      rcases hstop with rfl | rfl <;> simp [BisayaLang.moreBefore, hc]

theorem carries_body (hstop : stop.EndsBody) :
    Carries (BodyReads stop) fun ts => ts.headD .eof = stop where
  leadsTo := fun ⟨_, h⟩ => h.laid.leadsTo
  splice := by
    rintro c d new ⟨ss, hss⟩ hnew
    refine ⟨ss ++ [], hss.splice new ⟨hstop.boundary hnew, fun _ _ => ?_⟩ [] _ (body_nil ?_)⟩
    · rw [hnew]
      exact hstop.endsPrint
    · rw [Cursor.splice_self]
      exact hnew

/-- An empty print statement completes a statement that was not begun. -/
theorem completes_print (c : Cursor) :
    Completes StmtReads Boundary c c [.word .ipakita, .mark .colon] := by
  intro z hz
  rw [Cursor.splice_self]
  exact ⟨⟨z, 0⟩, ⟨_, .print rfl rfl (.stop (hz.itemRule_eq rfl))⟩, rfl⟩

/-- The tokens complete the statements that were read.  If none was begun, they start with a word that
also ends a print statement. -/
structure BodyRepair (stop : Token) (c d : Cursor) (w : List Token) : Prop where
  leadsTo : c.LeadsTo d
  atOnce : c.upTo d = [] → w.head? = some (.word .ipakita)
  completes : Completes (BodyReads stop) (fun ts => ts.headD .eof = stop) c d w

/-- What completes a statement completes the body that it is the last of. -/
theorem bodyRepair_stmt (hstop : stop.EndsBody) {c d : Cursor} {w : List Token} (hto : c.LeadsTo d)
    (h : Completes StmtReads Boundary c d w) (hw : c.upTo d = [] → w.head? = some (.word .ipakita)) :
    BodyRepair stop c d w := by
  refine ⟨hto, hw, fun z hz => ?_⟩
  obtain ⟨m, ⟨s, hs⟩, rfl⟩ := h z (hstop.boundary hz)
  exact ⟨m, ⟨[s], .cons (hs.moreBefore hstop) hs (body_nil hz)⟩, rfl⟩

/-- A statement stands before statements that can be completed. -/
theorem BodyRepair.cons (hstop : stop.EndsBody) {c m d : Cursor} {s : Stmt} {w : List Token}
    (h : BodyRepair stop m d w) (hs : Derives c (.stmt s) m) : BodyRepair stop c d w := by
  have hcm := hs.laid.leadsTo
  have hne : c.upTo d ≠ [] := by
    rw [Cursor.upTo_trans hcm h.leadsTo]
    simp [Cursor.upTo_ne_nil hcm hs.length_le]
  refine ⟨hcm.trans h.leadsTo, fun hnil => absurd hnil hne, fun z hz => ?_⟩
  obtain ⟨e, ⟨ss, hss⟩, rfl⟩ := h.completes z hz
  -- the next token is as it was, or the word of a print statement
  have hclose : Closes ((c.upTo m).map Spanned.token) m.kinds
      (m.splice d (unplaced w ++ e.tokens)).kinds := by
    refine ⟨hss.boundary_body (hstop.boundary hz), fun _ ho => ?_⟩
    rw [← Cursor.current_eq]
    by_cases hnil : m.upTo d = []
    · obtain rfl := Cursor.eq_of_upTo h.leadsTo hnil
      obtain ⟨w', rfl⟩ := List.head?_eq_some_iff.1 (h.atOnce hnil)
      rw [Cursor.splice_self]
      rfl
    · rwa [Cursor.current_splice_of_ne h.leadsTo hnil, Cursor.current_eq]
  have hstmt := hs.splice (m.splice d (unplaced w ++ e.tokens)).tokens hclose
  rw [Cursor.splice_splice hcm h.leadsTo, Cursor.splice_self_splice] at hstmt
  exact ⟨e, ⟨s :: ss, .cons (hstmt.moreBefore hstop) hstmt hss⟩, rfl⟩

section

variable {st : Parse Stmt} (hst : Fixes n st StmtReads Boundary)

include hst

/-- A body is completed where one of its statements is.  A statement that was not begun is replaced by an
empty print statement. -/
theorem bodyRepair_of_error (hstop : stop.EndsBody) {c d : Cursor} {e : SyntaxError}
    (hn : c.tokens.length ≤ n) (h : st c = .error e d) :
    e.PointsAt d ∧ ∃ w, BodyRepair stop c d w := by
  obtain ⟨hp, hto, w, hw⟩ := (hst.run c hn).error h
  refine ⟨hp, ?_⟩
  by_cases hnil : c.upTo d = []
  · obtain rfl := Cursor.eq_of_upTo hto hnil
    exact ⟨_, bodyRepair_stmt hstop hto (completes_print c) fun _ => rfl⟩
  · exact ⟨w, bodyRepair_stmt hstop hto hw fun h => absurd h hnil⟩

/-- A body can be completed where reading its statements stops. -/
theorem bodyRepair_of_repeatF (hstop : stop.EndsBody) (fuel : Nat) :
    ∀ {c d : Cursor} {e : SyntaxError}, c.tokens.length ≤ n →
      repeatF (moreBefore stop) st fuel c = .error e d →
      e.PointsAt d ∧ ∃ w, BodyRepair stop c d w := by
  induction fuel with
  | zero =>
      intro c d e _ h
      cases h
  | succ fuel ih =>
      intro c d e hn h
      rw [repeatF, get_bind] at h
      split at h
      · rcases bind_eq_error h with h | ⟨s, m, hs, h⟩
        · exact bodyRepair_of_error hst hstop hn h
        · obtain ⟨s', hs'⟩ := (hst.run c hn).ok hs
          have hlen := hs'.length_le
          rcases bind_eq_error h with h | ⟨_, _, -, h⟩
          · obtain ⟨hp, w, hw⟩ := ih (by simp only [Node.leastTokens] at hlen; omega) h
            exact ⟨hp, w, hw.cons hstop hs'⟩
          · cases h
      · cases h

/-- The statements that were read make up a body. -/
theorem bodyReads_of_repeatF (fuel : Nat) :
    ∀ {c m : Cursor} {ss : List Stmt}, c.tokens.length ≤ fuel → c.tokens.length ≤ n →
      repeatF (moreBefore stop) st fuel c = .ok ss m → BodyReads stop c m := by
  induction fuel with
  | zero =>
      intro c m ss hfuel _ h
      cases h
      have hnil : c.tokens = [] := List.length_eq_zero_iff.1 (by omega)
      refine ⟨[], .nil ?_⟩
      rw [moreBefore, Cursor.current_eq, Cursor.kinds, hnil]
      simp
  | succ fuel ih =>
      intro c m ss hfuel hn h
      rw [repeatF, get_bind] at h
      rcases ite_eq_ok.1 h with ⟨hm, h⟩ | ⟨hm, h⟩
      · obtain ⟨s, m', hs, h⟩ := bind_eq_ok.1 h
        obtain ⟨ss', m'', hss, h⟩ := bind_eq_ok.1 h
        obtain ⟨-, rfl⟩ := pure_eq_ok.1 h
        obtain ⟨s', hs'⟩ := (hst.run c hn).ok hs
        have hlen := hs'.length_le
        simp only [Node.leastTokens] at hlen
        obtain ⟨ts, hts⟩ := ih (by omega) (by omega) hss
        exact ⟨s' :: ts, .cons hm hs' hts⟩
      · obtain ⟨-, rfl⟩ := pure_eq_ok.1 h
        exact ⟨[], .nil (by simpa using hm)⟩

/-- **The statements of a body can be completed.** -/
theorem fixes_body (hstop : stop.EndsBody) :
    Fixes n (repeatWhile (moreBefore stop) st) (BodyReads stop) fun ts => ts.headD .eof = stop := by
  refine ⟨⟨[], fun z lastEnd hz => ⟨⟨z, lastEnd⟩, ⟨[], body_nil hz⟩, rfl⟩⟩, fun c hn =>
    repairs_of (fun ss m h => bodyReads_of_repeatF hst c.tokens.length (Nat.le_refl _) hn h)
      fun e d h => ?_⟩
  obtain ⟨hp, w, hw⟩ := bodyRepair_of_repeatF hst hstop c.tokens.length hn h
  exact ⟨hp, hw.leadsTo, w, hw.completes⟩

end

end

/-! ### Blocks, conditionals and loops -/

/-- A block stands there. -/
def BlockReads (c d : Cursor) : Prop := ∃ b, Derives c (.block b) d

/-- A test and the block behind it stand there. -/
def TestBlock (c : Cursor) (x : Expr × Block) (d : Cursor) : Prop :=
  ∃ m, TestReads c x.1 m ∧ Derives m (.block x.2) d

theorem local_testBlock : Local TestBlock fun _ => True where
  leadsTo := by
    rintro c x d ⟨m, ht, hb⟩
    exact ht.laid.leadsTo.trans hb.laid.leadsTo
  splice := by
    rintro c x d new ⟨m, ht, hb⟩ -
    exact ⟨_, local_test.through ht hb.laid.leadsTo trivial, hb.splice new⟩

theorem local_branch :
    Local (fun c x d => atKung .dili c = true ∧ BranchReads c x d) fun _ => True where
  leadsTo := by
    rintro c x d ⟨-, hx⟩
    exact c.leadsTo_step.trans (c.step.leadsTo_step.trans (local_testBlock.leadsTo hx))
  splice := by
    rintro c x d new ⟨hk, hx⟩ -
    obtain ⟨hk', hs⟩ := atKung_splice hk (by simp) (local_testBlock.leadsTo hx) new
    refine ⟨hk', ?_⟩
    show TestBlock _ _ _
    rw [hs]
    exact local_testBlock.splice hx trivial

/-- No later branch with a test stands where the last part of a conditional does. -/
theorem not_atKung_of_last {c m : Cursor} (h : Stretch LastReads c m) (hm : Boundary m.kinds) :
    True ∧ ∀ c' : Cursor, c'.kinds = c.kinds → atKung .dili c' = false := by
  obtain ⟨o, ⟨hw, -⟩ | ⟨-, rfl, -⟩⟩ := h
  · exact ⟨trivial, fun c' hc => by rw [atKung_congr _ hc, atKung_wala_of_dili hw]⟩
  · exact ⟨trivial, fun c' hc => hm.not_atKung hc (by simp)⟩

/-- What stands behind the two tokens of a later branch. -/
theorem Repairs.behindKung {α : Type} {p : Parse α} {R : Cursor → Cursor → Prop}
    {F : List Token → Prop} {c : Cursor} {t : Token} (h : Repairs p R F c.step.step)
    (hk : atKung t c = true) (ht : t ≠ .eof) :
    Repairs (Parse.step >>= fun _ => Parse.step >>= fun _ => p)
      (fun c d => atKung t c = true ∧ R c.step.step d) F c := by
  obtain ⟨hkung, hnext⟩ := Bool.and_eq_true_iff.1 hk
  rw [Cursor.peek_eq] at hnext
  refine ((h.step (by rw [eq_of_beq hnext]; exact ht)).step (by simp [eq_of_beq hkung])).mono ?_
    fun _ h => h
  rintro c' d ⟨hk', hn', hr⟩
  refine ⟨?_, hr⟩
  rw [atKung, Cursor.peek_eq, hk', hn', hkung, hnext]
  rfl

/-- A token that stands there is the next one. -/
theorem OneToken.head {t : Token} {c m : Cursor} (h : OneToken (· = t) c m) :
    c.kinds.headD .eof = t := by
  rw [← Cursor.current_eq]
  exact h.1

theorem OneToken.ends {mark : Mark} {c m : Cursor} (h : OneToken (· = .mark mark) c m)
    (ho : (Token.mark mark).startsOperand = false) (ha : (Token.mark mark).isAssign = false) :
    Ends c.kinds := by
  rw [Cursor.kinds_of_current (by simp [h.1]), h.1]
  exact ends_mark ho ha _

section

variable {st : Parse Stmt} (hst : Fixes n st StmtReads Boundary)

include hst

theorem fixes_block : Fixes n (blockOf st) BlockReads fun _ => True := by
  have h := Fixes.behind (t := .word .pundok) (by simp) fun first : Span =>
    Fixes.behind (t := .mark .lbrace) (by simp) fun _ =>
      (fixes_body hst (.inl rfl)).andThen (carries_body (.inl rfl))
        (fun ss => (fixes_expect (t := .mark .rbrace) (by simp)).still fun last m =>
          ⟨Block.mk ss ⟨first.start, last.stop⟩, rfl⟩) fun _ _ hm _ => hm.head
  refine h.mono ?_ fun _ h => h
  rintro c d ⟨_, ⟨hc, rfl⟩, _, ⟨hl, rfl⟩, m, ⟨ss, hss⟩, hr, rfl⟩
  exact ⟨_, .block hc hl hss hr⟩

theorem fixes_branch : Fixes n (branchOf st) (Stretch TestBlock) fun _ => True := by
  have h := Fixes.behind (t := .mark .lparen) (by simp) fun _ =>
    fixes_expression.andThen local_expr.carries (fun test =>
      Fixes.behind (t := .mark .rparen) (by simp) fun _ =>
        (fixes_block hst).still fun body m => ⟨(test, body), rfl⟩)
      fun _ _ ⟨_, hr, _⟩ _ => hr.ends rfl rfl
  refine h.mono ?_ fun _ h => h
  rintro c d ⟨_, ⟨hc, rfl⟩, m, ⟨e, he⟩, _, ⟨hr, rfl⟩, b, hb⟩
  exact ⟨(e, b), _, .intro hc he hr, hb⟩

/-- The later branches with a test can be completed. -/
theorem fixes_others :
    Fixes n (repeatWhile (atKung .dili) (do step; step; branchOf st))
      (Stretch (Many (atKung .dili) BranchReads))
      fun ts => True ∧ ∀ c : Cursor, c.kinds = ts → atKung .dili c = false := by
  refine fixes_repeatWhile (fun _ => atKung_ne_eof) local_branch (fun _ _ => trivial)
    (fun _ _ _ _ h => h.length_lt) fun c hn hc => ?_
  refine (((fixes_branch hst).run c.step.step ?_).behindKung hc (by simp)).mono ?_ fun _ h => h
  · exact Nat.le_trans (length_le_of_leadsTo (c.leadsTo_step.trans c.step.leadsTo_step)) hn
  · rintro c' d ⟨hk, x, hx⟩
    exact ⟨hk, x, hx⟩

theorem fixes_lastBranch : Fixes n (lastBranchOf st) (Stretch LastReads) Boundary := by
  refine ⟨⟨[], fun z lastEnd hz => ⟨⟨z, lastEnd⟩, ⟨.nothing, .inr ⟨?_, rfl, rfl⟩⟩, rfl⟩⟩,
    fun c hn => ?_⟩
  · exact hz.not_atKung rfl (by simp)
  · cases hw : atKung (.word .wala) c with
    | false =>
        unfold Repairs lastBranchOf
        rw [get_bind, hw]
        exact ⟨.nothing, .inr ⟨hw, rfl, rfl⟩⟩
    | true =>
        have hlen := length_le_of_leadsTo (c.leadsTo_step.trans c.step.leadsTo_step)
        have hblock := ((fixes_block hst).run c.step.step (by omega)).still fun body m =>
          ⟨Otherwise.always body, rfl⟩
        unfold Repairs lastBranchOf
        rw [get_bind, hw]
        refine (hblock.behindKung hw (by simp)).mono ?_ fun _ _ => trivial
        rintro c' d ⟨hk, b, hb⟩
        exact ⟨.always b, .inl ⟨hk, b, hb, rfl⟩⟩

theorem fixes_conditional : Fixes (n + 1) (conditionalOf st) StmtReads Boundary := by
  have : Nonempty (Expr × Block) := ⟨(default, .mk [] default)⟩
  have h := Fixes.behindFirst (t := .word .kung) (by simp) fun first : Span =>
    (fixes_branch hst).andThen local_testBlock.carries (fun (x : Expr × Block) =>
      (fixes_others hst).andThen (carries_many local_branch fun _ _ => trivial) (fun others =>
        (fixes_lastBranch hst).still fun last m =>
          ⟨Stmt.conditional x.1 x.2 (chain others last) ⟨first.start, m.lastEnd⟩, rfl⟩)
        fun _ _ => not_atKung_of_last)
      fun _ _ _ _ => trivial
  refine h.mono ?_ fun _ h => h
  rintro c d ⟨_, ⟨hc, rfl⟩, m, ⟨x, m₀, ht, hb⟩, m', ⟨others, ho⟩, last, hl⟩
  exact ⟨_, .conditional hc ht hb (derives_chain ho hl)⟩

theorem fixes_loop : Fixes (n + 1) (loopOf st) StmtReads Boundary := by
  have : Nonempty Assignment := ⟨⟨[], default, default⟩⟩
  have hcomma : ∀ (c m : Cursor) {S : Cursor → Cursor → Prop},
      Seq (OneToken (· = .mark .comma)) S c m → Ends c.kinds := fun _ _ _ ⟨_, hc, _⟩ => hc.ends rfl rfl
  have h := Fixes.behindFirst (t := .word .alang) (by simp) fun first : Span =>
    Fixes.behind (t := .word .sa) (by simp) fun _ =>
      Fixes.behind (t := .mark .lparen) (by simp) fun _ =>
        fixes_assignment.andThen carries_assignment (fun start =>
          Fixes.behind (t := .mark .comma) (by simp) fun _ =>
            fixes_expression.andThen local_expr.carries (fun test =>
              Fixes.behind (t := .mark .comma) (by simp) fun _ =>
                fixes_name.andThen local_name.carries (fun counter =>
                  fixes_loopStep.andThen (carries_oneToken (by simp)) (fun step =>
                    Fixes.behind (t := .mark .rparen) (by simp) fun _ =>
                      (fixes_block hst).still fun body m =>
                        ⟨Stmt.loop start test counter step body ⟨first.start, body.span.stop⟩, rfl⟩)
                    fun _ _ _ _ => trivial)
                  fun _ _ _ _ => trivial)
              fun _ _ h _ => hcomma _ _ h)
          fun _ _ h _ => hcomma _ _ h
  refine h.mono ?_ fun _ _ => trivial
  rintro c d ⟨_, ⟨hc, rfl⟩, _, ⟨hs, rfl⟩, _, ⟨hl, rfl⟩, m, ha, _, ⟨hm, rfl⟩, m', ⟨test, he⟩, _,
    ⟨hm', rfl⟩, k, ⟨counter, hk⟩, _, ⟨⟨step, hstep⟩, rfl⟩, _, ⟨hr, rfl⟩, body, hb⟩
  obtain ⟨first, ha⟩ := ha.reads
  exact ⟨_, .loop (.intro hc hs hl ha hm he hm' hk hstep hr rfl) hb⟩

end

/-! ### Any statement -/

/-- An error that is given before a statement is begun. -/
theorem repairs_failHere {fault : SyntaxFault} {c : Cursor}
    (hf : ∀ t, fault.found? = some t → t = c.current) :
    Repairs (failHere fault : Parse Stmt) StmtReads Boundary c := by
  refine repairs_of (fun s m h => absurd h failHere_ne_ok) fun e d h => ?_
  obtain ⟨rfl, hp⟩ := failHere_error h hf
  exact ⟨hp, .refl _, _, completes_print _⟩

/-- **Statements can be completed**, with as much fuel as there are tokens. -/
theorem fixes_statementF (fuel : Nat) : Fixes fuel (statementF fuel) StmtReads Boundary := by
  refine ⟨(fixes_print (n := 0)).opens, ?_⟩
  induction fuel with
  | zero =>
      intro c _
      rw [statementF]
      exact repairs_failHere fun t ht => by cases ht
  | succ fuel ih =>
      intro c hn
      have hst : Fixes fuel (statementF fuel) StmtReads Boundary := ⟨(fixes_print (n := 0)).opens, ih⟩
      have hfound : ∀ {fault : SyntaxFault}, fault.found? = some c.current →
          Repairs (failHere fault : Parse Stmt) StmtReads Boundary c := fun hf =>
        repairs_failHere fun t ht => (Option.some.inj (hf.symm.trans ht)).symm
      refine Repairs.congr ?_ (show statementF (fuel + 1) c = _ by rw [statementF, get_bind])
      cases hc : c.current with
      | name text =>
          have h := (fixes_assignment.run c hn).still fun a m => ⟨Stmt.assignment a, rfl⟩
          refine (h.mono (fun c' d ha => ?_) fun _ hts => hts.ends).congr ?_
          · obtain ⟨a, ha⟩ := ha.reads
            exact ⟨_, .assignment ha⟩
          · show (Stmt.assignment <$> assignment) c = _
            rw [map_eq_pure_bind]
            rfl
      | word w =>
          cases w with
          | mugna => exact fixes_declaration.run c hn
          | ipakita => exact fixes_print.run c hn
          | dawat => exact fixes_input.run c hn
          | kung => exact (fixes_conditional hst).run c hn
          | alang => exact (fixes_loop hst).run c hn
          | _ => exact hfound (by rw [hc]; rfl)
      | eof => exact repairs_failHere fun t ht => by cases ht
      | _ => exact hfound (by rw [hc]; rfl)

end

end BisayaLang
