/-
**Other tokens behind what was read.**

The parser decides by the tokens ahead where a statement ends, so that the tokens behind a statement
have a say in how it is read.  Here it is shown how little they have: what was read before some tokens
is read in the same way, with the same places, before any others that cannot go on with it.  For a
statement these are the tokens that start the next one, or end the block or the program.  The one
exception is a print statement that ends inside an escape, since there a name or a mark is just
another item.

Main definitions:

* `BisayaLang.Cursor.upTo`, `BisayaLang.Cursor.splice` — the tokens between two cursors, and other
  tokens put behind them;
* `BisayaLang.escapeAfter` — an escape is open behind a list of tokens;
* `BisayaLang.Local` — what is read does not depend on the tokens behind it, within limits;
* `BisayaLang.Closes` — the tokens may stand behind a statement in place of those there.

Main results:

* `BisayaLang.Reads.splice`, `BisayaLang.Items.splice` — expressions and the items of a print statement
  are read in the same way before other tokens;
* `BisayaLang.Derives.splice` — so are statements, blocks and branches, and **the statements of a body
  may have others behind them**.
-/

import BisayaLang.Proofs.Canonical.Reparse
import BisayaLang.Proofs.Grammar.Placement

set_option relaxedAutoImplicit false
set_option autoImplicit false

namespace BisayaLang

open Climb Parse

/-! ### Cutting tokens and putting them together -/

namespace Cursor

variable {c m d : Cursor} {new : List Spanned}

/-- The tokens from the first cursor up to the second. -/
def upTo (c d : Cursor) : List Spanned := c.tokens.take (c.tokens.length - d.tokens.length)

/-- The first cursor, with other tokens in the place of those ahead of the second. -/
def splice (c d : Cursor) (new : List Spanned) : Cursor := ⟨c.upTo d ++ new, c.lastEnd⟩

theorem upTo_of_takes {run : List Spanned} (h : Takes c run d) : c.upTo d = run := by
  unfold upTo
  rw [h.tokens, List.length_append, Nat.add_sub_cancel]
  exact List.take_left

theorem LeadsTo.takes (h : c.LeadsTo d) : Takes c (c.upTo d) d := by
  obtain ⟨run, hrun⟩ := h
  rw [upTo_of_takes hrun]
  exact hrun

theorem upTo_self (c : Cursor) : c.upTo c = [] := upTo_of_takes ⟨rfl, rfl⟩

theorem upTo_trans (h : c.LeadsTo m) (h' : m.LeadsTo d) : c.upTo d = c.upTo m ++ m.upTo d :=
  upTo_of_takes (h.takes.trans h'.takes)

/-- Two cursors with nothing between them are the same. -/
theorem eq_of_upTo (h : c.LeadsTo d) (hn : c.upTo d = []) : c = d := by
  obtain ⟨htokens, hlast⟩ := h.takes
  rw [hn] at htokens hlast
  obtain ⟨tokens, lastEnd⟩ := c
  obtain ⟨tokens', lastEnd'⟩ := d
  simp only [List.nil_append] at htokens
  simp only [List.getLast?_nil, Option.map_none, Option.getD_none] at hlast
  rw [htokens, hlast]

theorem splice_self (d : Cursor) (new : List Spanned) : d.splice d new = ⟨new, d.lastEnd⟩ := by
  rw [splice, upTo_self]
  rfl

theorem splice_splice (h : c.LeadsTo m) (h' : m.LeadsTo d) :
    c.splice m (m.splice d new).tokens = c.splice d new := by
  rw [splice, splice, splice, upTo_trans h h', List.append_assoc]

/-- Behind the part that is kept stand the tokens that are put there. -/
theorem splice_self_splice (m d : Cursor) (new : List Spanned) :
    m.splice m (m.splice d new).tokens = m.splice d new := splice_self ..

theorem upTo_eq_cons (hc : c.current ≠ .eof) (h : c.step.LeadsTo d) :
    ∃ t, c.upTo d = t :: c.step.upTo d ∧ t.token = c.current ∧ t.span = c.span ∧
      t.span.stop = c.step.lastEnd := by
  obtain ⟨t, rest, ht, hk, hspan, hs⟩ := tokens_of_current hc
  have htakes : Takes c [t] c.step := ⟨by rw [hs, ht]; rfl, by rw [hs]; rfl⟩
  exact ⟨t, upTo_of_takes (htakes.trans h.takes), hk, hspan, by rw [hs]⟩

theorem step_splice (hc : c.current ≠ .eof) (h : c.step.LeadsTo d) (new : List Spanned) :
    (c.splice d new).step = c.step.splice d new := by
  obtain ⟨t, ht, -, -, hstop⟩ := upTo_eq_cons hc h
  rw [splice, ht, splice, ← hstop]
  rfl

theorem span_splice (hc : c.current ≠ .eof) (h : c.step.LeadsTo d) (new : List Spanned) :
    (c.splice d new).span = c.span := by
  obtain ⟨t, ht, -, hspan, -⟩ := upTo_eq_cons hc h
  rw [splice, ht, ← hspan]
  rfl

theorem current_splice (hc : c.current ≠ .eof) (h : c.step.LeadsTo d) (new : List Spanned) :
    (c.splice d new).current = c.current := by
  obtain ⟨t, ht, hk, -, -⟩ := upTo_eq_cons hc h
  rw [splice, ht, ← hk]
  rfl

/-- A token that was read stays as it is: the token, the cursor behind it and its place. -/
theorem splice_of_current {t : Token} (hc : c.current = t) (ht : t ≠ .eof) (h : c.step.LeadsTo d)
    (new : List Spanned) : (c.splice d new).current = t ∧
      (c.splice d new).step = c.step.splice d new ∧ (c.splice d new).span = c.span := by
  subst hc
  exact ⟨current_splice ht h new, step_splice ht h new, span_splice ht h new⟩

/-- The same for two tokens. -/
theorem splice_of_two {t u : Token} (hc : c.current = t) (ht : t ≠ .eof) (hs : c.step.current = u)
    (hu : u ≠ .eof) (h : c.step.step.LeadsTo d) (new : List Spanned) :
    (c.splice d new).current = t ∧ (c.splice d new).step.current = u ∧
      (c.splice d new).step.step = c.step.step.splice d new ∧ (c.splice d new).span = c.span := by
  obtain ⟨hc', hstep, hspan⟩ := splice_of_current hc ht (c.step.leadsTo_step.trans h) new
  obtain ⟨hs', hstep', -⟩ := splice_of_current hs hu h new
  rw [hstep]
  exact ⟨hc', hs', hstep', hspan⟩

theorem kinds_splice (c d : Cursor) (new : List Spanned) :
    (c.splice d new).kinds = (c.upTo d).map Spanned.token ++ new.map Spanned.token :=
  List.map_append

theorem LeadsTo.kinds (h : c.LeadsTo d) :
    c.kinds = (c.upTo d).map Spanned.token ++ d.kinds := by
  rw [Cursor.kinds, h.takes.tokens, List.map_append]
  rfl

/-- Where something is kept, the next token stays the same. -/
theorem current_splice_of_ne (h : c.LeadsTo d) (hne : c.upTo d ≠ []) (new : List Spanned) :
    (c.splice d new).current = c.current := by
  obtain ⟨t, run, hrun⟩ := List.exists_cons_of_ne_nil hne
  rw [current_eq, current_eq, kinds_splice, h.kinds, hrun]
  rfl

/-- Where something is read, the first token is. -/
theorem LeadsTo.of_step (h : c.LeadsTo d) (hne : c.upTo d ≠ []) : c.step.LeadsTo d := by
  obtain ⟨t, run, hrun⟩ := List.exists_cons_of_ne_nil hne
  obtain ⟨htokens, hlast⟩ := h.takes
  rw [hrun] at htokens hlast
  have hs : c.step = ⟨run ++ d.tokens, t.span.stop⟩ := by
    rw [Cursor.step, htokens]
    rfl
  refine ⟨run, by rw [hs], ?_⟩
  rw [hs, hlast, List.getLast?_cons]
  cases run.getLast? <;> rfl

/-- A cursor with fewer tokens ahead is not the same. -/
theorem upTo_ne_nil (h : c.LeadsTo d) (hlt : d.tokens.length < c.tokens.length) :
    c.upTo d ≠ [] := by
  intro hn
  rw [eq_of_upTo h hn] at hlt
  exact Nat.lt_irrefl _ hlt

end Cursor

/-! ### Expressions -/

/-- What a token leads depends on the token, its place and, for `DILI`, on what stands ahead. -/
theorem lead?_congr {c c₂ : Cursor} (hc : c₂.current = c.current) (hs : c₂.span = c.span)
    (hd : c.current = .dili → operandAhead c₂.step.kinds = operandAhead c.step.kinds) :
    lead? c₂ = lead? c := by
  have hneg : c.current = .dili → Stacks.negates c₂ = Stacks.negates c := by
    intro h
    rw [Stacks.negates_eq, Stacks.negates_eq, hd h]
  unfold lead?
  rw [hc, hs]
  split <;> try rfl
  rename_i h
  rw [hneg h]

/-- An operand that stands ahead does so whatever stands behind its first token, unless an assignment is
made of it. -/
theorem operandAhead_append {run rest ts : List Token} (hne : run ≠ [])
    (h : operandAhead (run ++ rest) = true)
    (ha : (ts.headD .eof).isAssign = true → (rest.headD .eof).isAssign = true) :
    operandAhead (run ++ ts) = true := by
  match run, hne with
  | [t], _ =>
      simp only [List.cons_append, List.nil_append, operandAhead] at h ⊢
      revert h ha
      cases t.startsOperand <;> cases t.isName <;> cases (ts.headD .eof).isAssign <;>
        cases (rest.headD .eof).isAssign <;> simp
  | t :: u :: run, _ => exact h

theorem follows_closing (b : Bracket) (d : Cursor) (ts : List Token) :
    Follows d (b.closing :: ts) := by
  cases b with
  | round => exact (ends_mark rfl rfl ts).follows d
  | square => exact (ends_mark rfl rfl ts).follows d

theorem Follows.stops_splice {d : Cursor} {new : List Spanned}
    (h : Follows d (new.map Spanned.token)) {min : Nat} (hs : Stops min d) :
    Stops min (d.splice d new) := by
  refine h.stops_of_kinds ?_ hs
  rw [Cursor.splice_self]
  rfl

/-- **An expression is read in the same way before other tokens**, if these may take the place of those
that stand there. -/
theorem Reads.splice {min : Nat} {c d : Cursor} {e : Expr} (h : Reads min c e d) :
    ∀ {new : List Spanned}, Follows d (new.map Spanned.token) →
      Reads min (c.splice d new) e (d.splice d new) := by
  have hne : ∀ {c : Cursor} {l : Lead}, lead? c = some l → c.current ≠ .eof := by
    intro c l hl he
    rw [lead?_eof he] at hl
    cases hl
  induction h with
  | @atom min c e hl =>
      intro new hf
      have hc := hne hl
      have hstep := Cursor.step_splice hc (.refl _) new
      rw [← hstep]
      refine .atom ((lead?_congr (Cursor.current_splice hc (.refl _) new)
        (Cursor.span_splice hc (.refl _) new) fun hd => ?_).trans hl)
      -- the truth value `DILI` has no operand behind it, and gets none
      have hn : operandAhead c.step.kinds = false := by
        rw [← Stacks.negates_eq]
        cases hneg : Stacks.negates c with
        | false => rfl
        | true => simp [lead?, hd, hneg] at hl
      rw [hstep, Cursor.splice_self, hn]
      cases ho : operandAhead (new.map Spanned.token) with
      | false => exact ho
      | true => exact absurd (hf.operand ho) (by simp [hn])
  | @unary min c d op e hl hr hst ih =>
      intro new hf
      have hc := hne hl
      have hto := hr.leadsTo
      have hstep := Cursor.step_splice hc hto new
      have hlead : lead? (c.splice d new) = some (.unary op) := by
        refine (lead?_congr (Cursor.current_splice hc hto new) (Cursor.span_splice hc hto new)
          fun hd => ?_).trans hl
        -- the negation `DILI` keeps the operand that it was read with
        have hn : operandAhead c.step.kinds = true := by
          rw [← Stacks.negates_eq]
          cases hneg : Stacks.negates c with
          | true => rfl
          | false => simp [lead?, hd, hneg] at hl
        rw [hstep, hn, Cursor.kinds_splice]
        rw [hto.kinds] at hn
        refine operandAhead_append ?_ hn hf.assign
        simpa using Cursor.upTo_ne_nil hto hr.length_lt
      have hread : Reads min _ _ _ := .unary hlead (hstep ▸ ih hf) (hf.stops_splice hst)
      rwa [Cursor.span_splice hc hto] at hread
  | @group min c d b e hl hr hcl ih =>
      intro new hf
      have hc := hne hl
      have hd : d.current ≠ .eof := hcl ▸ closing_ne_eof b
      have hto := hr.leadsTo
      have hlead : lead? (c.splice d.step new) = some (.opening b) := by
        refine (lead?_congr (Cursor.current_splice hc hto.step new)
          (Cursor.span_splice hc hto.step new) fun hdili => ?_).trans hl
        simp only [lead?, hdili] at hl
        split at hl <;> cases hl
      have hcur := Cursor.current_splice hd (.refl _) new
      have hinner : Reads 0 (c.step.splice d.step new) e (d.splice d.step new) := by
        have hin := @ih (d.splice d.step new).tokens (by
          show Follows d (d.splice d.step new).kinds
          rw [Cursor.kinds_of_current (by rw [hcur]; exact hd), hcur, hcl]
          exact follows_closing b d _)
        rwa [Cursor.splice_splice hto d.leadsTo_step, Cursor.splice_self_splice] at hin
      have hread : Reads min _ _ _ := .group hlead
        (by rw [Cursor.step_splice hc hto.step]; exact hinner) (by rw [hcur, hcl])
      rwa [Cursor.span_splice hc hto.step, Cursor.span_splice hd (.refl _),
        Cursor.step_splice hd (.refl _)] at hread
  | @binary min c d d' op l r hl hop hlt hr hst ihl ihr =>
      intro new hf
      have hd : d.current ≠ .eof := by simp [hop]
      have hto := hr.leadsTo
      have hcur := Cursor.current_splice hd hto new
      -- behind the left operand stands the operator, as it did before
      have hleft : Reads min (c.splice d' new) l (d.splice d' new) := by
        have hin := @ihl (d.splice d' new).tokens (by
          show Follows d (d.splice d' new).kinds
          rw [Cursor.kinds_of_current (by rw [hcur]; exact hd), hcur, hop]
          exact follows_op hop _)
        rwa [Cursor.splice_splice hl.leadsTo (d.leadsTo_step.trans hto),
          Cursor.splice_self_splice] at hin
      refine .binary hleft (by rw [hcur, hop]) hlt ?_ (hf.stops_splice hst)
      rw [Cursor.step_splice hd hto]
      exact ihr hf

theorem ExprReads.splice_follows {c d : Cursor} {e : Expr} (h : ExprReads c e d)
    (new : List Spanned) (hf : Follows d (new.map Spanned.token)) :
    ExprReads (c.splice d new) e (d.splice d new) :=
  ⟨h.1.splice hf, hf.stops_splice h.2⟩

/-! ### Parts that do not depend on what stands behind them -/

section

variable {α : Type}

/-- What is read is a run of tokens, and is read in the same way before any tokens that `F` allows. -/
structure Local (R : Cursor → α → Cursor → Prop) (F : List Token → Prop) : Prop where
  leadsTo : ∀ {c d : Cursor} {a : α}, R c a d → c.LeadsTo d
  splice : ∀ {c d : Cursor} {a : α} {new : List Spanned}, R c a d → F (new.map Spanned.token) →
    R (c.splice d new) a (d.splice d new)

/-- A part is read in the same way when the tokens further behind it are changed. -/
theorem Local.through {R : Cursor → α → Cursor → Prop} {F : List Token → Prop} (hR : Local R F)
    {c m d : Cursor} {a : α} {new : List Spanned} (h : R c a m) (hm : m.LeadsTo d)
    (hF : F (m.splice d new).kinds) : R (c.splice d new) a (m.splice d new) := by
  have hr := hR.splice h (show F ((m.splice d new).tokens.map Spanned.token) from hF)
  rwa [Cursor.splice_splice (hR.leadsTo h) hm, Cursor.splice_self_splice] at hr

theorem current_splice_self (d : Cursor) (new : List Spanned) :
    (d.splice d new).current = (new.map Spanned.token).headD .eof := by
  rw [Cursor.splice_self, Cursor.current_eq]
  rfl

theorem local_name : Local NameReads fun _ => True where
  leadsTo := NameReads.leadsTo
  splice := by
    rintro c d n new ⟨hc, hs, rfl⟩ -
    have hne : c.current ≠ .eof := by simp [hc]
    refine ⟨?_, ?_, (Cursor.step_splice hne (.refl _) new).symm⟩
    · rw [Cursor.current_splice hne (.refl _), hc]
    · rw [Cursor.span_splice hne (.refl _), hs]

theorem Local.mono {R : Cursor → α → Cursor → Prop} {F G : List Token → Prop} (h : Local R F)
    (hF : ∀ ts, G ts → F ts) : Local R G where
  leadsTo := h.leadsTo
  splice := fun hr hG => h.splice hr (hF _ hG)

theorem local_expr : Local ExprReads Ends where
  leadsTo := fun h => h.1.leadsTo
  splice := fun h hf => h.splice_follows _ (hf.follows _)

theorem isAssign_ne_eof {c : Cursor} (h : c.current.isAssign = true) : c.current ≠ .eof := by
  intro he
  rw [he] at h
  cases h

theorem local_declared : Local DeclaredReads Ends where
  leadsTo := fun h => h.laid.leadsTo
  splice := by
    intro c d v new h hf
    cases h with
    | plain hn ha =>
        refine .plain (local_name.splice hn trivial) ?_
        rw [current_splice_self]
        exact hf.assign
    | value hn ha he =>
        rename_i m n e
        have hm := isAssign_ne_eof ha
        have hto := local_expr.leadsTo he
        refine .value (local_name.through hn (m.leadsTo_step.trans hto) trivial) ?_ ?_
        · rw [Cursor.current_splice hm hto, ha]
        · rw [Cursor.step_splice hm hto]
          exact local_expr.splice he hf

theorem atTarget_of {c : Cursor} (hn : c.current.isName = true)
    (ha : c.step.current.isAssign = true) : c.atTarget = true := by
  rw [Cursor.atTarget, Cursor.peek_eq, hn, ha]
  rfl

/-- A target is announced by itself. -/
theorem local_target :
    Local (fun c n d => c.atTarget = true ∧ TargetReads c n d) fun _ => True where
  leadsTo := fun h => h.2.laid.leadsTo
  splice := by
    rintro c d n new ⟨-, hn, ha, rfl⟩ -
    have hc : c.current ≠ .eof := by simp [hn.1]
    have hc' := isAssign_ne_eof ha
    have hto := c.step.leadsTo_step
    have hstep := Cursor.step_splice hc hto new
    have hstep' := Cursor.step_splice hc' (.refl _) new
    have hname : NameReads (c.splice c.step.step new) n (c.splice c.step.step new).step := by
      rw [hstep]
      exact local_name.through hn hto trivial
    have hassign : (c.splice c.step.step new).step.current.isAssign = true := by
      rw [hstep, Cursor.current_splice hc' (.refl _), ha]
    refine ⟨atTarget_of (by rw [hname.1]; rfl) hassign, hname, hassign, ?_⟩
    rw [hstep, hstep']

/-- The first of several parts is announced, if there is one. -/
theorem Many.eq_or_more {more : Cursor → Bool} {R : Cursor → α → Cursor → Prop} {c d : Cursor}
    {as : List α} (h : Many more R c as d) : c = d ∨ more c = true := by
  cases h with
  | nil _ => exact .inl rfl
  | cons hm _ _ => exact .inr hm

theorem Many.leadsTo {more : Cursor → Bool} {R : Cursor → α → Cursor → Prop} {F : List Token → Prop}
    (hR : Local (fun c a d => more c = true ∧ R c a d) F) {c d : Cursor} {as : List α}
    (h : Many more R c as d) : c.LeadsTo d := by
  induction h with
  | nil _ => exact .refl _
  | cons hm ha _ ih => exact (hR.leadsTo ⟨hm, ha⟩).trans ih

/-- Several parts are read in the same way, if each of them is, wherever the next one is announced. -/
theorem Many.splice {more : Cursor → Bool} {R : Cursor → α → Cursor → Prop} {F : List Token → Prop}
    (hR : Local (fun c a d => more c = true ∧ R c a d) F)
    (hF : ∀ c : Cursor, more c = true → F c.kinds) {c d : Cursor} {as : List α}
    (h : Many more R c as d) (new : List Spanned) (hn : F (new.map Spanned.token))
    (hend : more (d.splice d new) = false) : Many more R (c.splice d new) as (d.splice d new) := by
  induction h with
  | nil _ => exact .nil hend
  | @cons c m d a as hm ha has ih =>
      have hto := has.leadsTo hR
      have hmany := ih hend
      have hFm : F (m.splice d new).kinds := by
        rcases hmany.eq_or_more with heq | hm'
        · rw [heq, Cursor.splice_self]
          exact hn
        · exact hF _ hm'
      have hpart := hR.through ⟨hm, ha⟩ hto hFm
      exact .cons hpart.1 hpart.2 hmany

theorem kinds_of_atComma {c : Cursor} (h : atComma c = true) :
    c.kinds = .mark .comma :: c.step.kinds := by
  rw [Cursor.kinds_of_current (atComma_ne_eof h), eq_of_beq h]

theorem ends_of_atComma {c : Cursor} (h : atComma c = true) : Ends c.kinds := by
  rw [kinds_of_atComma h]
  exact ends_mark rfl rfl _

theorem local_behindComma {R : Cursor → α → Cursor → Prop} (hR : Local R Ends) :
    Local (fun c a d => atComma c = true ∧ R c.step a d) Ends := by
  refine ⟨fun {c _ _} h => c.leadsTo_step.trans (hR.leadsTo h.2), ?_⟩
  rintro c d a new ⟨hc, ha⟩ hf
  have hne := atComma_ne_eof hc
  have hto := hR.leadsTo ha
  refine ⟨?_, ?_⟩
  · rw [atComma, Cursor.current_splice hne hto]
    exact hc
  · rw [Cursor.step_splice hne hto]
    exact hR.splice ha hf

/-- Parts with commas between them are read in the same way where no comma follows. -/
theorem local_commaList {R : Cursor → α → Cursor → Prop} (hR : Local R Ends) :
    Local (CommaList R) fun ts => Ends ts ∧ ts.headD .eof ≠ .mark .comma := by
  have hpart := local_behindComma hR
  refine ⟨?_, ?_⟩
  · rintro c d as ⟨ha, has⟩
    exact (hR.leadsTo ha).trans (has.leadsTo hpart)
  · rintro c d as new ⟨ha, has⟩ ⟨hf, hc⟩
    have hend : atComma (d.splice d new) = false := by
      rw [atComma, current_splice_self]
      simpa using hc
    have hrest := has.splice hpart (fun _ => ends_of_atComma) new hf hend
    refine .intro (hR.through ha (has.leadsTo hpart) ?_) hrest
    rcases hrest.eq_or_more with heq | hm
    · rw [heq, Cursor.splice_self]
      exact hf
    · exact ends_of_atComma hm

end

/-- A value that is no further target stays none. -/
theorem ExprReads.atTarget_splice {c d : Cursor} {e : Expr} (h : ExprReads c e d)
    (ht : c.atTarget = false) {new : List Spanned} (hf : Ends (new.map Spanned.token)) :
    (c.splice d new).atTarget = false := by
  have hto := local_expr.leadsTo h
  have hne := Cursor.upTo_ne_nil hto h.length_lt
  rw [atTarget_eq, hto.kinds] at ht
  rw [atTarget_eq, Cursor.kinds_splice]
  match hrun : (c.upTo d).map Spanned.token with
  | [] => exact absurd (List.map_eq_nil_iff.1 hrun) hne
  | [t] =>
      rw [List.cons_append, List.tail_cons, List.nil_append, hf.assign, Bool.and_false]
  | t :: u :: run =>
      rw [hrun] at ht
      exact ht

theorem local_assignment : Local AssignmentReads Ends where
  leadsTo := fun h => h.laid.leadsTo
  splice := by
    rintro c d a new ⟨ht, hts, he⟩ hf
    rename_i m m' n ns e
    have hte := local_expr.leadsTo he
    have htarget : c.atTarget = true := atTarget_of (by rw [ht.1.1]; rfl) ht.2.1
    have hend := he.atTarget_splice hts.more_eq_false hf
    have hmany := hts.splice local_target (fun _ _ => trivial) (m'.splice d new).tokens
      trivial (by rw [Cursor.splice_self_splice]; exact hend)
    have hto := hts.leadsTo local_target
    rw [Cursor.splice_splice hto hte, Cursor.splice_self_splice] at hmany
    refine .intro ?_ hmany (local_expr.splice he hf)
    exact (local_target.through ⟨htarget, ht⟩ (hto.trans hte) trivial).2

theorem local_test : Local TestReads fun _ => True where
  leadsTo := fun h => h.laid.leadsTo
  splice := by
    rintro c d e new ⟨hc, he, hd⟩ -
    rename_i d
    have hne : c.current ≠ .eof := by simp [hc]
    have hne' : d.current ≠ .eof := by simp [hd]
    have hto := local_expr.leadsTo he
    have hcur := Cursor.current_splice hne' (.refl _) new
    rw [← Cursor.step_splice hne' (.refl _)]
    refine .intro (by rw [Cursor.current_splice hne hto.step, hc]) ?_ (by rw [hcur, hd])
    rw [Cursor.step_splice hne hto.step]
    refine local_expr.through he d.leadsTo_step ?_
    rw [Cursor.kinds_of_current (by rw [hcur]; exact hne'), hcur, hd]
    exact ends_mark rfl rfl _

/-- A comma ends an expression. -/
theorem ends_of_comma {c : Cursor} (h : c.current = .mark .comma) : Ends c.kinds := by
  rw [Cursor.kinds_of_current (by simp [h]), h]
  exact ends_mark rfl rfl _

theorem LoopHead.splice {c d : Cursor} {first : Assignment} {test : Expr} {counter : Name}
    {step : Step} (h : LoopHead c first test counter step d) (new : List Spanned) :
    LoopHead (c.splice d new) first test counter step (d.splice d new) := by
  obtain ⟨hc, hs, hl, ha, hm, he, hm', hn, hk, hr, rfl⟩ := h
  rename_i m m' n
  -- the cursors in the order of the tokens, each leading to the last one
  have h₄ : n.LeadsTo n.step.step := n.leadsTo_step.step
  have h₃ : m'.step.LeadsTo n.step.step := hn.leadsTo.trans h₄
  have h₂ : m.step.LeadsTo n.step.step :=
    (local_expr.leadsTo he).trans (m'.leadsTo_step.trans h₃)
  have h₁ : c.step.step.step.LeadsTo n.step.step :=
    (local_assignment.leadsTo ha).trans (m.leadsTo_step.trans h₂)
  obtain ⟨hc', hcs, -⟩ := Cursor.splice_of_current hc (by simp)
    (c.step.leadsTo_step.trans (c.step.step.leadsTo_step.trans h₁)) new
  obtain ⟨hs', hl', hls, -⟩ := Cursor.splice_of_two hs (by simp) hl (by simp) h₁ new
  obtain ⟨hmc, hms, -⟩ := Cursor.splice_of_current hm (by simp) h₂ new
  obtain ⟨hmc', hms', -⟩ := Cursor.splice_of_current hm' (by simp) h₃ new
  obtain ⟨hk', hr', hns, -⟩ := Cursor.splice_of_two hk (by simp) hr (by simp) (.refl _) new
  refine .intro (n := n.splice n.step.step new) hc' (by rw [hcs, hs']) (by rw [hcs, hl']) ?_ hmc ?_
    hmc' ?_ hk' hr' hns.symm
  · rw [hcs, hls]
    exact local_assignment.through ha (m.leadsTo_step.trans h₂) (ends_of_comma hmc)
  · rw [hms]
    exact local_expr.through he (m'.leadsTo_step.trans h₃) (ends_of_comma hmc')
  · rw [hms']
    exact local_name.through hn h₄ trivial

/-! ### Print statements -/

/-- An escape is open behind a token.  A print statement starts outside of one. -/
def escapeStep (escaped : Bool) : Token → Bool
  | .mark .lbracket => true
  | .mark .rbracket | .word .ipakita => false
  | _ => escaped

/-- An escape is open behind a list of tokens. -/
def escapeAfter (escaped : Bool) (ts : List Token) : Bool := ts.foldl escapeStep escaped

theorem escapeAfter_append (escaped : Bool) (ts us : List Token) :
    escapeAfter escaped (ts ++ us) = escapeAfter (escapeAfter escaped ts) us := List.foldl_append

theorem escapeAfter_cons (escaped : Bool) (t : Token) (ts : List Token) :
    escapeAfter escaped (t :: ts) = escapeAfter (escapeStep escaped t) ts := rfl

/-- An escape that is opened by the last tokens is open, whatever stands before them. -/
theorem escapeAfter_of_false {ts : List Token} (h : escapeAfter false ts = true) (escaped : Bool) :
    escapeAfter escaped ts = true := by
  have hmono : ∀ {ts : List Token} {e e' : Bool}, (e = true → e' = true) →
      escapeAfter e ts = true → escapeAfter e' ts = true := by
    intro ts
    induction ts with
    | nil => exact fun hle h => hle h
    | cons t ts ih =>
        intro e e' hle h
        refine ih (e := escapeStep e t) (fun hs => ?_) h
        unfold escapeStep at hs ⊢
        split at hs
        · rfl
        · cases hs
        · cases hs
        · exact hle hs
  exact hmono (by simp) h

/-- Every escape inside an expression is closed again: its square brackets are in pairs. -/
theorem Reads.escapeAfter_eq {min : Nat} {c d : Cursor} {e : Expr} (h : Reads min c e d) :
    escapeAfter false ((c.upTo d).map Spanned.token) = false := by
  have hlead : ∀ {c d : Cursor} {l : Lead}, lead? c = some l → c.step.LeadsTo d →
      ∃ t, (c.upTo d).map Spanned.token = t :: (c.step.upTo d).map Spanned.token ∧
        (l = .opening .square ∨ escapeStep false t = false) := by
    intro c d l hl hd
    have hc : c.current ≠ .eof := by
      intro he
      rw [lead?_eof he] at hl
      cases hl
    obtain ⟨t, ht, hk, -⟩ := Cursor.upTo_eq_cons hc hd
    refine ⟨t.token, by rw [ht, List.map_cons], ?_⟩
    rw [hk]
    unfold lead? at hl
    split at hl <;> simp_all [escapeStep]
  induction h with
  | atom hl =>
      obtain ⟨t, ht, hs⟩ := hlead hl (.refl _)
      rw [ht, Cursor.upTo_self]
      exact hs.resolve_left (by simp)
  | unary hl hr _ ih =>
      obtain ⟨t, ht, hs⟩ := hlead hl hr.leadsTo
      rw [ht, escapeAfter_cons, hs.resolve_left (by simp)]
      exact ih
  | @group _ c d b e hl hr hcl ih =>
      have hd : d.current ≠ .eof := hcl ▸ closing_ne_eof b
      obtain ⟨t, ht, hs⟩ := hlead hl hr.leadsTo.step
      obtain ⟨u, hu, huk, -⟩ := Cursor.upTo_eq_cons hd (.refl _)
      rw [ht, Cursor.upTo_trans hr.leadsTo d.leadsTo_step, hu, Cursor.upTo_self, List.map_append,
        ← List.cons_append, escapeAfter_append, List.map_cons, huk, hcl]
      cases b with
      | square => rfl
      | round =>
          rw [escapeAfter_cons false t, hs.resolve_left (by simp), ih]
          rfl
  | @binary _ c d d' op l r hl hop _ hr _ ihl ihr =>
      have hd : d.current ≠ .eof := by simp [hop]
      obtain ⟨t, ht, htk, -⟩ := Cursor.upTo_eq_cons hd hr.leadsTo
      rw [Cursor.upTo_trans hl.leadsTo (d.leadsTo_step.trans hr.leadsTo), List.map_append,
        escapeAfter_append, ihl, ht, List.map_cons, htk, hop]
      exact ihr

/-- What a token in a print statement does to the escape. -/
theorem escapeStep_of_itemRule {escaped : Bool} {c : Cursor} :
    (∀ on, itemRule escaped c = .escape on → escapeStep escaped c.current = on) ∧
    (itemRule escaped c = .skip → escapeStep escaped c.current = escaped) ∧
    (∀ i, itemRule escaped c = .item i → escapeStep escaped c.current = escaped) := by
  unfold itemRule
  generalize c.peek.isAssign = a, c.peek.isArithmetic = b
  cases escaped <;> cases a <;> cases b <;> split <;> simp_all [escapeStep]

theorem itemRule_ne_eof {escaped : Bool} {c : Cursor} (h : itemRule escaped c ≠ .stop) :
    c.current ≠ .eof := by
  intro he
  simp [itemRule, he] at h

/-- Behind the items of a print statement the next token does not belong to it: inside the escape, if
the tokens leave one open. -/
theorem Items.itemRule_end {escaped : Bool} {c d : Cursor} {is : List PrintItem}
    (h : Items escaped c is d) :
    itemRule (escapeAfter escaped ((c.upTo d).map Spanned.token)) d = .stop := by
  have hstep : ∀ {escaped on : Bool} {c d : Cursor}, itemRule escaped c ≠ .stop →
      c.step.LeadsTo d → escapeStep escaped c.current = on →
      escapeAfter escaped ((c.upTo d).map Spanned.token) =
        escapeAfter on ((c.step.upTo d).map Spanned.token) := by
    rintro escaped on c d hne hd rfl
    obtain ⟨t, ht, hk, -⟩ := Cursor.upTo_eq_cons (itemRule_ne_eof hne) hd
    rw [ht, List.map_cons, escapeAfter_cons, hk]
  induction h with
  | stop hr =>
      rw [Cursor.upTo_self]
      exact hr
  | escape hr hi ih =>
      rw [hstep (by simp [hr]) hi.laid.leadsTo (escapeStep_of_itemRule.1 _ hr)]
      exact ih
  | skip hr hi ih =>
      rw [hstep (by simp [hr]) hi.laid.leadsTo (escapeStep_of_itemRule.2.1 hr)]
      exact ih
  | item hr hi ih =>
      rw [hstep (by simp [hr]) hi.laid.leadsTo (escapeStep_of_itemRule.2.2 _ hr)]
      exact ih
  | expression hr he hi ih =>
      obtain ⟨rfl, -⟩ := itemRule_eq_expression.1 hr
      rw [Cursor.upTo_trans he.1.leadsTo hi.laid.leadsTo, List.map_append, escapeAfter_append,
        he.1.escapeAfter_eq]
      exact ih

/-- The token ends a print statement, also inside an escape. -/
def Token.endsPrint : Token → Bool
  | .eof | .mark .rbrace | .word _ | .type _ => true
  | _ => false

theorem itemRule_escaped_eq_stop {c : Cursor} :
    itemRule true c = .stop ↔ c.current.endsPrint = true := by
  unfold itemRule
  split <;> simp_all [Token.endsPrint]

/-- What the next token means in a print statement depends on the token, its place and the one behind
it. -/
theorem itemRule_congr {escaped : Bool} {c c₂ : Cursor} (hc : c₂.current = c.current)
    (hs : c₂.span = c.span) (hp : c₂.peek = c.peek) : itemRule escaped c₂ = itemRule escaped c := by
  unfold itemRule
  rw [hc, hs, hp]

/-- A token that is an item by itself stays one where no expression can go on. -/
theorem itemRule_last {escaped : Bool} {c c₂ : Cursor} (hc : c₂.current = c.current)
    (hs : c₂.span = c.span) (ha : c₂.peek.isAssign = false) (ho : c₂.peek.isArithmetic = false)
    (hstop : itemRule escaped c ≠ .stop) (he : itemRule escaped c ≠ .expression) :
    itemRule escaped c₂ = itemRule escaped c := by
  unfold itemRule at *
  rw [hc, hs, ha, ho]
  generalize c.peek.isAssign = a, c.peek.isArithmetic = o at *
  cases escaped <;> cases a <;> cases o <;> split at hstop <;> simp_all

theorem Ends.isArithmetic_eq {ts : List Token} (h : Ends ts) :
    (ts.headD .eof).isArithmetic = false := by
  cases ht : ts.headD .eof with
  | op op => exact absurd ht (h.operator op)
  | _ => rfl

/-- A token that is an item, or stands between items, means the same before tokens that neither assign
to it nor go on with it. -/
theorem itemRule_splice {escaped : Bool} {c d : Cursor} {new : List Spanned}
    (hne : itemRule escaped c ≠ .stop) (hexpr : itemRule escaped c ≠ .expression)
    (hd : c.step.LeadsTo d) (ha : ((new.map Spanned.token).headD .eof).isAssign = false)
    (ho : ((new.map Spanned.token).headD .eof).isArithmetic = false) :
    itemRule escaped (c.splice d new) = itemRule escaped c := by
  have hc := itemRule_ne_eof hne
  have hstep := Cursor.step_splice hc hd new
  have hcur := Cursor.current_splice hc hd new
  have hspan := Cursor.span_splice hc hd new
  by_cases hnil : c.step.upTo d = []
  · obtain rfl := Cursor.eq_of_upTo hd hnil
    have hpeek : (c.splice c.step new).peek = (new.map Spanned.token).headD .eof := by
      rw [Cursor.peek_eq, hstep, current_splice_self]
    exact itemRule_last hcur hspan (by rw [hpeek]; exact ha) (by rw [hpeek]; exact ho) hne hexpr
  · refine itemRule_congr hcur hspan ?_
    rw [Cursor.peek_eq, hstep, Cursor.current_splice_of_ne hd hnil, Cursor.peek_eq]

/-- An item that is read before others is followed by what stood behind it. -/
theorem follows_splice {m d : Cursor} (h : m.LeadsTo d) (hne : m.upTo d ≠ [])
    (ht : m.atTarget = false) (new : List Spanned) : Follows m (m.splice d new).kinds := by
  have hhead : (m.splice d new).kinds.headD .eof = m.kinds.headD .eof := by
    rw [← Cursor.current_eq, Cursor.current_splice_of_ne h hne, Cursor.current_eq]
  refine ⟨fun ho => ?_, fun ha => hhead ▸ ha, fun k hk op hop => ?_⟩
  · obtain ⟨t, ts, hks⟩ : ∃ t ts, m.kinds = t :: ts := by
      rw [h.kinds]
      obtain ⟨t, run, hrun⟩ := List.exists_cons_of_ne_nil hne
      exact ⟨_, _, by rw [hrun, List.map_cons, List.cons_append]⟩
    rw [atTarget_eq, hks] at ht
    rw [hks] at hhead ⊢
    obtain ⟨us, hus⟩ : ∃ us, (m.splice d new).kinds = t :: us := by
      rw [Cursor.kinds_splice]
      rw [h.kinds] at hks
      obtain ⟨u, run, hrun⟩ := List.exists_cons_of_ne_nil hne
      rw [hrun, List.map_cons, List.cons_append] at hks ⊢
      obtain ⟨rfl, -⟩ := List.cons.inj hks
      exact ⟨_, rfl⟩
    rw [hus] at ho
    simp only [operandAhead, Bool.and_eq_true] at ho ⊢
    simp only [List.headD_cons, List.tail_cons] at ht
    exact ⟨ho.1, by rw [ht]; rfl⟩
  · rw [hhead, ← Cursor.current_eq] at hop
    exact hk op hop

/-- The target of an assignment is no item. -/
theorem itemRule_of_atTarget {c : Cursor} (ht : c.atTarget = true) : itemRule false c = .stop := by
  obtain ⟨hn, ha⟩ := Bool.and_eq_true_iff.1 ht
  cases hc : c.current with
  | name text => simp [itemRule, hc, ha]
  | _ => simp [hc, Token.isName] at hn

theorem Items.eq_of_atTarget {c d : Cursor} {is : List PrintItem} (h : Items false c is d)
    (ht : c.atTarget = true) : c = d := by
  have hstop := itemRule_of_atTarget ht
  cases h with
  | stop _ => rfl
  | escape hr _ => simp [hstop] at hr
  | skip hr _ => simp [hstop] at hr
  | item hr _ => simp [hstop] at hr
  | expression hr _ _ => simp [hstop] at hr

/-- An expression in a print statement is announced by its own tokens. -/
theorem ExprReads.itemRule_splice {c m d : Cursor} {e : Expr} (h : ExprReads c e m)
    (hr : itemRule false c = .expression) (hmd : m.LeadsTo d) (new : List Spanned) :
    itemRule false (c.splice d new) = .expression := by
  have hc : c.current ≠ .eof := @itemRule_ne_eof false c (by simp [hr])
  have hstep := h.1.leadsTo.of_step (Cursor.upTo_ne_nil h.1.leadsTo h.length_lt)
  have hd := hstep.trans hmd
  refine itemRule_eq_expression.2 ⟨rfl, ?_⟩
  rw [Cursor.current_splice hc hd, Cursor.peek_eq, Cursor.step_splice hc hd]
  rcases (itemRule_eq_expression.1 hr).2 with hp | ⟨ho, ha⟩
  · exact .inl hp
  · refine .inr ⟨ho, ?_⟩
    rw [Cursor.peek_eq] at ha
    rw [Cursor.current_splice_of_ne hd ?_, ha]
    intro hnil
    -- the expression would end before an operator
    have hm : c.step = m := by
      refine Cursor.eq_of_upTo hstep ?_
      rw [Cursor.upTo_trans hstep hmd] at hnil
      exact (List.append_eq_nil_iff.1 hnil).1
    rw [hm] at ha
    cases hcur : m.current with
    | op op => exact absurd (h.2 op hcur) (Nat.not_le.2 (precedence_pos op))
    | _ => simp [hcur, Token.isArithmetic] at ha

/-- **The items of a print statement are read in the same way before other tokens**, if these do not
belong to the statement. -/
theorem Items.splice {escaped : Bool} {c d : Cursor} {is : List PrintItem} (h : Items escaped c is d)
    {new : List Spanned} (hf : Ends (new.map Spanned.token))
    (hstop : itemRule (escapeAfter escaped ((c.upTo d).map Spanned.token)) (d.splice d new) = .stop) :
    Items escaped (c.splice d new) is (d.splice d new) := by
  have hone : ∀ {escaped : Bool} {c d : Cursor} {r : ItemRule}, itemRule escaped c = r →
      r ≠ .stop → r ≠ .expression → c.step.LeadsTo d →
      itemRule escaped (c.splice d new) = r ∧
      (c.splice d new).step = c.step.splice d new ∧
      escapeAfter escaped ((c.upTo d).map Spanned.token) =
        escapeAfter (escapeStep escaped c.current) ((c.step.upTo d).map Spanned.token) := by
    rintro escaped c d _ rfl hne hexpr hd
    have hc := itemRule_ne_eof hne
    obtain ⟨t, ht, hk, -⟩ := Cursor.upTo_eq_cons hc hd
    exact ⟨itemRule_splice hne hexpr hd hf.assign hf.isArithmetic_eq, Cursor.step_splice hc hd new,
      by rw [ht, List.map_cons, escapeAfter_cons, hk]⟩
  induction h with
  | stop _ =>
      rw [Cursor.upTo_self] at hstop
      exact .stop hstop
  | escape hr hi ih =>
      obtain ⟨hrule, hstep, hesc⟩ := hone hr (by simp) (by simp) hi.laid.leadsTo
      rw [hesc, escapeStep_of_itemRule.1 _ hr] at hstop
      exact .escape hrule (hstep ▸ ih hstop)
  | skip hr hi ih =>
      obtain ⟨hrule, hstep, hesc⟩ := hone hr (by simp) (by simp) hi.laid.leadsTo
      rw [hesc, escapeStep_of_itemRule.2.1 hr] at hstop
      exact .skip hrule (hstep ▸ ih hstop)
  | item hr hi ih =>
      obtain ⟨hrule, hstep, hesc⟩ := hone hr (by simp) (by simp) hi.laid.leadsTo
      rw [hesc, escapeStep_of_itemRule.2.2 _ hr] at hstop
      exact .item hrule (hstep ▸ ih hstop)
  | @expression escaped c m d e is hr he hi ih =>
      obtain ⟨rfl, hrule⟩ := itemRule_eq_expression.1 hr
      have hmd := hi.laid.leadsTo
      rw [Cursor.upTo_trans he.1.leadsTo hmd, List.map_append, escapeAfter_append,
        he.1.escapeAfter_eq] at hstop
      have hrest := ih hstop
      -- what follows the expression is what followed it, or what ends every expression
      have hfollows : Follows m (m.splice d new).kinds := by
        by_cases hnil : m.upTo d = []
        · obtain rfl := Cursor.eq_of_upTo hmd hnil
          rw [Cursor.splice_self]
          exact hf.follows m
        · refine follows_splice hmd hnil ?_ new
          cases ht : m.atTarget with
          | false => rfl
          | true => exact absurd (hi.eq_of_atTarget ht ▸ Cursor.upTo_self m) hnil
      have hread : ExprReads (c.splice d new) e (m.splice d new) := by
        have hin := he.splice_follows (m.splice d new).tokens hfollows
        rwa [Cursor.splice_splice he.1.leadsTo hmd, Cursor.splice_self_splice] at hin
      exact .expression (he.itemRule_splice hr hmd new) hread hrest

/-! ### Statements, blocks and branches -/

/-- The tokens `new` may take the place of `old` behind the statements `run`: the next statement starts
there, or the block or the program ends, and they also end a print statement that leaves an escape
open. -/
structure Closes (run old new : List Token) : Prop where
  boundary : Boundary new
  escape : escapeAfter false run = true → (old.headD .eof).endsPrint = true →
    (new.headD .eof).endsPrint = true

/-- Every statement starts with a token that ends the one before. -/
theorem Derives.boundary {c d : Cursor} {s : Stmt} (h : Derives c (.stmt s) d) :
    Boundary c.kinds := by
  have hword : ∀ {w : Keyword}, c.current = .word w →
      (w = .kung → c.step.current = .mark .lparen) → Boundary c.kinds := by
    intro w hc hw
    rw [Cursor.kinds_of_current (by simp [hc]), hc]
    exact .word fun h => by rw [← Cursor.current_eq, hw h]
  cases h with
  | declaration hc _ _ => exact hword hc (by simp)
  | assignment ha =>
      obtain ⟨⟨⟨hc, -, -⟩, ha, -⟩, -, -⟩ := ha
      rw [Cursor.kinds_of_current (by simp [hc]), hc,
        Cursor.kinds_of_current (isAssign_ne_eof ha)]
      exact .target ha
  | print hc _ _ => exact hword hc (by simp)
  | input hc _ _ => exact hword hc (by simp)
  | conditional hc ht _ _ =>
      obtain ⟨hl, -, -⟩ := ht
      exact hword hc fun _ => hl
  | loop hh _ =>
      obtain ⟨hc, -, -, -, -, -, -, -, -, -, -⟩ := hh
      exact hword hc (by simp)

/-- Where a body starts, the statement before it ends. -/
theorem Derives.boundary_body {c d : Cursor} {stop : Token} {ss : List Stmt}
    (h : Derives c (.body stop ss) d) (hd : Boundary d.kinds) : Boundary c.kinds := by
  cases h with
  | nil _ => exact hd
  | cons _ hs _ => exact hs.boundary

/-- The tree between two cursors is read in the same way before other tokens.  A body is read with what
follows it there. -/
def Node.Splices (c d : Cursor) (new : List Spanned) : Node → Prop
  | .stmt s => Closes ((c.upTo d).map Spanned.token) d.kinds (new.map Spanned.token) →
      Derives (c.splice d new) (.stmt s) (d.splice d new)
  | .block b => Derives (c.splice d new) (.block b) (d.splice d new)
  | .rest o => Boundary (new.map Spanned.token) →
      Derives (c.splice d new) (.rest o) (d.splice d new)
  | .body stop ss => Closes ((c.upTo d).map Spanned.token) d.kinds (new.map Spanned.token) →
      ∀ ss' e, Derives (d.splice d new) (.body stop ss') e →
        Derives (c.splice d new) (.body stop (ss ++ ss')) e

theorem lastEnd_splice_self (d : Cursor) (new : List Spanned) :
    (d.splice d new).lastEnd = d.lastEnd := by rw [Cursor.splice_self]

/-- The tokens behind a statement of a body are those of the next one, or those behind the body. -/
theorem Closes.of_rest {c m d e : Cursor} {stop : Token} {ss ss' : List Stmt} {new : List Spanned}
    (hbody : Derives m (.body stop ss) d)
    (hclose : Closes ((c.upTo d).map Spanned.token) d.kinds (new.map Spanned.token))
    (hrest : Derives (m.splice d new) (.body stop (ss ++ ss')) e) :
    Closes ((c.upTo m).map Spanned.token) m.kinds (m.splice d new).kinds := by
  cases hbody with
  | nil _ =>
      rw [Cursor.splice_self]
      exact hclose
  | cons _ hs hss =>
      rename_i m' s ss
      have hto := hs.laid.leadsTo.trans hss.laid.leadsTo
      have hlen := hs.length_le
      have hlen' := hss.length_le
      have hne : m.upTo d ≠ [] := Cursor.upTo_ne_nil hto (by
        simp only [Node.leastTokens] at hlen hlen'
        omega)
      cases hrest with
      | cons _ hs' _ =>
          refine ⟨hs'.boundary, fun _ ho => ?_⟩
          rwa [← Cursor.current_eq, Cursor.current_splice_of_ne hto hne, Cursor.current_eq]

/-- What may stand behind some statements may stand behind the last of them. -/
theorem Closes.tail {c m d : Cursor} {new : List Spanned}
    (h : Closes ((c.upTo d).map Spanned.token) d.kinds (new.map Spanned.token))
    (hcm : c.LeadsTo m) (hmd : m.LeadsTo d) :
    Closes ((m.upTo d).map Spanned.token) d.kinds (new.map Spanned.token) := by
  refine ⟨h.boundary, fun ho => h.escape ?_⟩
  rw [Cursor.upTo_trans hcm hmd, List.map_append, escapeAfter_append]
  exact escapeAfter_of_false ho _

/-- The two tokens that lead a later branch stay as they are. -/
theorem atKung_splice {c d : Cursor} {t : Token} (h : atKung t c = true) (ht : t ≠ .eof)
    (hd : c.step.step.LeadsTo d) (new : List Spanned) :
    atKung t (c.splice d new) = true ∧ (c.splice d new).step.step = c.step.step.splice d new := by
  obtain ⟨hc, hp⟩ := Bool.and_eq_true_iff.1 h
  rw [Cursor.peek_eq] at hp
  obtain ⟨hc', hp', hs, -⟩ :=
    Cursor.splice_of_two (eq_of_beq hc) (by simp) (eq_of_beq hp) ht hd new
  refine ⟨?_, hs⟩
  rw [atKung, Cursor.peek_eq, hc', hp']
  simp

/-- The items of a print statement still end before other tokens. -/
theorem Items.stops_splice {c d : Cursor} {items : List PrintItem} {new : List Spanned}
    (hi : Items false c.step.step items d) (hc : c.current = .word .ipakita)
    (ht : c.step.current = .mark .colon)
    (hclose : Closes ((c.upTo d).map Spanned.token) d.kinds (new.map Spanned.token)) :
    itemRule (escapeAfter false ((c.step.step.upTo d).map Spanned.token)) (d.splice d new) =
      .stop := by
  have hto := hi.laid.leadsTo
  -- the word and the colon before the items open no escape
  have hesc : escapeAfter false ((c.upTo d).map Spanned.token) =
      escapeAfter false ((c.step.step.upTo d).map Spanned.token) := by
    obtain ⟨t, hrun, hk, -⟩ := Cursor.upTo_eq_cons (by simp [hc]) (c.step.leadsTo_step.trans hto)
    obtain ⟨u, hrun', hk', -⟩ := Cursor.upTo_eq_cons (by simp [ht]) hto
    rw [hrun, hrun', List.map_cons, List.map_cons, hk, hk', hc, ht]
    rfl
  have hend := hi.itemRule_end
  rw [← hesc] at hend ⊢
  cases hopen : escapeAfter false ((c.upTo d).map Spanned.token) with
  | false =>
      refine hclose.boundary.itemRule_eq ?_
      rw [Cursor.splice_self]
      rfl
  | true =>
      rw [hopen, itemRule_escaped_eq_stop, Cursor.current_eq] at hend
      rw [itemRule_escaped_eq_stop, current_splice_self]
      exact hclose.escape hopen hend

/-- A block is read in the same way when the tokens further behind it are changed. -/
theorem Derives.block_through {c m d : Cursor} {b : Block} (hb : Derives c (.block b) m)
    (ih : ∀ new, (Node.block b).Splices c m new) (hd : m.LeadsTo d) (new : List Spanned) :
    Derives (c.splice d new) (.block b) (m.splice d new) := by
  have hblock := ih (m.splice d new).tokens
  rwa [Node.Splices, Cursor.splice_splice hb.laid.leadsTo hd, Cursor.splice_self_splice] at hblock

/-- **Statements, blocks and branches are read in the same way before other tokens**, and the statements
of a body may have others behind them. -/
theorem Derives.splice {c d : Cursor} {n : Node} (h : Derives c n d) :
    ∀ new : List Spanned, n.Splices c d new := by
  induction h with
  | @declaration c d type vars hc ht hv =>
      intro new hclose
      have hto := (local_commaList local_declared).leadsTo hv
      obtain ⟨hc', ht', hs, hspan⟩ := Cursor.splice_of_two hc (by simp) ht (by simp) hto new
      rw [← hspan, ← lastEnd_splice_self d new]
      refine .declaration hc' ht' ?_
      rw [hs]
      exact (local_commaList local_declared).splice hv
        ⟨hclose.boundary.ends, hclose.boundary.ne_comma⟩
  | assignment ha =>
      intro new hclose
      exact .assignment (local_assignment.splice ha hclose.boundary.ends)
  | @print c d items hc ht hi =>
      intro new hclose
      obtain ⟨hc', ht', hs, hspan⟩ :=
        Cursor.splice_of_two hc (by simp) ht (by simp) hi.laid.leadsTo new
      rw [← hspan, ← lastEnd_splice_self d new]
      refine .print hc' ht' ?_
      rw [hs]
      exact hi.splice hclose.boundary.ends (hi.stops_splice hc ht hclose)
  | @input c d names hc ht hn =>
      intro new hclose
      have hnames : Local (CommaList NameReads) _ := local_commaList (local_name.mono fun _ _ => trivial)
      obtain ⟨hc', ht', hs, hspan⟩ :=
        Cursor.splice_of_two hc (by simp) ht (by simp) (hnames.leadsTo hn) new
      rw [← hspan, ← lastEnd_splice_self d new]
      refine .input hc' ht' ?_
      rw [hs]
      exact hnames.splice hn ⟨hclose.boundary.ends, hclose.boundary.ne_comma⟩
  | @conditional c m m' d test body rest hc ht hb hr ihb ihr =>
      intro new hclose
      have hmd := hb.laid.leadsTo.trans hr.laid.leadsTo
      obtain ⟨hc', hs, hspan⟩ :=
        Cursor.splice_of_current hc (by simp) (ht.laid.leadsTo.trans hmd) new
      have hblock := hb.block_through ihb hr.laid.leadsTo new
      rw [← hspan, ← lastEnd_splice_self d new]
      refine .conditional hc' ?_ hblock (ihr new hclose.boundary)
      rw [hs]
      exact local_test.through ht hmd trivial
  | @loop c m d first test counter step body hh hb ihb =>
      intro new _
      have hmd := hb.laid.leadsTo
      have hto := hh.laid.leadsTo
      have hhead := hh.splice (m.splice d new).tokens
      rw [Cursor.splice_splice hto hmd, Cursor.splice_self_splice] at hhead
      have hspan : (c.splice d new).span = c.span :=
        Cursor.span_splice (by obtain ⟨hc, -, -, -, -, -, -, -, -, -, -⟩ := hh; simp [hc])
          ((hto.of_step (Cursor.upTo_ne_nil hto hh.length_lt)).trans hmd) new
      rw [← hspan]
      exact .loop hhead (ihb new)
  | @block c m ss hc ho hss hcl ih =>
      intro new
      have hto := hss.laid.leadsTo
      obtain ⟨hc', ho', hs, hspan⟩ := Cursor.splice_of_two hc (by simp) ho (by simp) hto.step new
      obtain ⟨hcl', hs', hspan'⟩ := Cursor.splice_of_current hcl (by simp) (.refl _) new
      -- the closing bracket still ends the body
      have hbody := ih (m.splice m.step new).tokens
        ⟨by
          show Boundary (m.splice m.step new).kinds
          rw [Cursor.kinds_of_current (by simp [hcl']), hcl']
          exact .brace _, fun _ _ => by
          show ((m.splice m.step new).kinds.headD .eof).endsPrint = true
          rw [← Cursor.current_eq, hcl']
          rfl⟩ []
      rw [Cursor.splice_splice hto m.leadsTo_step, Cursor.splice_self_splice,
        List.append_nil] at hbody
      rw [Node.Splices, ← hspan, ← hspan', ← hs']
      refine .block hc' ho' ?_ hcl'
      rw [hs]
      exact hbody _ (.nil (by simp [moreBefore, hcl']))
  | @nothing c _ _ =>
      intro new hb
      have hk : (c.splice c new).kinds = new.map Spanned.token := by
        rw [Cursor.splice_self]
        rfl
      exact .nothing (hb.not_atKung hk (by simp)) (hb.not_atKung hk (by simp))
  | @branch c m m' d test body rest hk ht hb hr ihb ihr =>
      intro new hbound
      have hmd := hb.laid.leadsTo.trans hr.laid.leadsTo
      have hto := ht.laid.leadsTo.trans hmd
      obtain ⟨hk', hs⟩ := atKung_splice hk (by simp) hto new
      refine .branch hk' ?_ (hb.block_through ihb hr.laid.leadsTo new) (ihr new hbound)
      rw [hs]
      exact local_test.through ht hmd trivial
  | @always c d body hk hb ih =>
      intro new _
      obtain ⟨hk', hs⟩ := atKung_splice hk (by simp) hb.laid.leadsTo new
      refine .always hk' ?_
      rw [hs]
      exact ih new
  | nil _ =>
      intro new _ ss' e he
      exact he
  | @cons c m d stop s ss hm hs hss ihs ihb =>
      intro new hclose ss' e he
      have hmd := hss.laid.leadsTo
      have hcm := hs.laid.leadsTo
      have hlen := hs.length_le
      have hne : c.upTo m ≠ [] := Cursor.upTo_ne_nil hcm hlen
      have hrest := ihb new (hclose.tail hcm hmd) ss' e he
      have hstmt := ihs (m.splice d new).tokens (hclose.of_rest hss hrest)
      rw [Cursor.splice_splice hcm hmd, Cursor.splice_self_splice] at hstmt
      refine .cons ?_ hstmt hrest
      rwa [moreBefore, Cursor.current_splice_of_ne (hcm.trans hmd)
        (by rw [Cursor.upTo_trans hcm hmd]; simp [hne])]

end BisayaLang
