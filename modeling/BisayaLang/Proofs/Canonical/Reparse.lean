/-
**Reading a tree back from its own tokens.**

The tokens of a tree hold no brackets but those of its groups.  Precedence, the two meanings of `DILI`,
the ends of print items and the branches of conditionals have to be found again from the tokens alone,
and what stands behind an expression in the canonical tokens need not be what stood there before.  It is
enough that it ends the expression as well.

Main definitions:

* `BisayaLang.Follows` — tokens that may take the place of those behind an expression;
* `BisayaLang.Ends` — tokens that no expression goes on with;
* `BisayaLang.Boundary` — tokens that no statement goes on with.

Main results:

* `BisayaLang.Reads.reparse` — an expression is read back from its own tokens;
* `BisayaLang.Derives.reparse` — the same for statements, blocks and branches;
* `BisayaLang.ProgramReads.reparse` — the same for programs.
-/

import BisayaLang.Proofs.Grammar.Adequacy

set_option relaxedAutoImplicit false
set_option autoImplicit false

namespace BisayaLang

open Climb Parse

/-! ### What stands behind an expression -/

/-- The tokens may stand behind an expression in place of those ahead of the cursor: they do not make an
operand of what was none, and whatever ended at the cursor ends before them. -/
structure Follows (d : Cursor) (ts : List Token) : Prop where
  operand : operandAhead ts = true → operandAhead d.kinds = true
  assign : (ts.headD .eof).isAssign = true → (d.kinds.headD .eof).isAssign = true
  stops : ∀ m, Stops m d → ∀ op, ts.headD .eof = .op op → op.precedence ≤ m

/-- No expression goes on with the tokens. -/
structure Ends (ts : List Token) : Prop where
  operand : operandAhead ts = false
  assign : (ts.headD .eof).isAssign = false
  operator : ∀ op, ts.headD .eof ≠ .op op

theorem Ends.follows {ts : List Token} (h : Ends ts) (d : Cursor) : Follows d ts where
  operand := fun ho => absurd ho (by simp [h.operand])
  assign := fun ha => absurd (h.assign ▸ ha) Bool.false_ne_true
  stops := fun _ _ op ho => absurd ho (h.operator op)

/-- A mark that starts no operand ends an expression. -/
theorem ends_mark {m : Mark} (h : (Token.mark m).startsOperand = false)
    (ha : (Token.mark m).isAssign = false) (ts : List Token) : Ends (.mark m :: ts) where
  operand := by simp [operandAhead, h]
  assign := ha
  operator := by simp

theorem follows_op {d : Cursor} {op : BinaryOp} (h : d.current = .op op) (ts : List Token) :
    Follows d (.op op :: ts) := by
  have hk : d.kinds = .op op :: d.step.kinds := by
    rw [Cursor.kinds_of_current (by simp [h]), h]
  refine ⟨fun ho => ?_, fun ha => absurd ha (by simp [Token.isAssign]), fun m hm op' ho => ?_⟩
  · rw [hk]
    simp only [operandAhead, Token.isName, Bool.false_and, Bool.not_false, Bool.and_true] at ho ⊢
    exact ho
  · cases ho
    exact hm op h

theorem Follows.stops_of_kinds {d d₂ : Cursor} {ts : List Token} (h : Follows d ts)
    (hk : d₂.kinds = ts) {m : Nat} (hs : Stops m d) : Stops m d₂ := by
  intro op hop
  rw [Cursor.current_eq, hk] at hop
  exact h.stops m hs op hop

/-! ### Expressions -/

/-- Writing the first tokens back does not change that an operand stands there. -/
theorem operandAhead_tidy {run rest ts : List Token} (hne : run ≠ [])
    (h : operandAhead (run ++ rest) = true)
    (ha : (ts.headD .eof).isAssign = true → (rest.headD .eof).isAssign = true) :
    operandAhead (run.map Token.tidy ++ ts) = true := by
  match run, hne with
  | [t], _ =>
      simp only [List.map_cons, List.map_nil, List.cons_append, List.nil_append, operandAhead,
        Token.startsOperand_tidy, Token.isName_tidy] at h ⊢
      revert h ha
      cases t.startsOperand <;> cases t.isName <;> cases (ts.headD .eof).isAssign <;>
        cases (rest.headD .eof).isAssign <;> simp
  | t :: u :: run, _ =>
      simp only [List.map_cons, List.cons_append, operandAhead, List.headD_cons,
        Token.startsOperand_tidy, Token.isName_tidy, Token.isAssign_tidy] at h ⊢
      exact h

/-- What a token leads, without its place and with round brackets. -/
def Lead.bare : Lead → Lead
  | .atom e => .atom e.bare
  | .unary op => .unary op
  | .opening _ => .opening .round

/-- A token that is written back leads the same. -/
theorem lead?_tidy {c c₂ : Cursor} (h : c₂.current = c.current.tidy)
    (hd : c.current = .dili → operandAhead c₂.step.kinds = operandAhead c.step.kinds) :
    (lead? c₂).map Lead.bare = (lead? c).map Lead.bare := by
  have hnumber : ∀ lexeme : String, c₂.current = .ofNumber lexeme →
      (lead? c₂).map Lead.bare = (Number.readFloat? lexeme.toList).map fun x =>
        .atom (.number x lexeme (.point 0)) := by
    intro lexeme hn
    rcases Token.ofNumber_cases lexeme with hl | hl <;> simp only [lead?, hn, hl] <;>
      cases Number.readFloat? lexeme.toList <;> rfl
  cases hc : c.current with
  | integer lexeme =>
      rw [hnumber lexeme (by rw [h, hc]; rfl)]
      simp only [lead?, hc]
      cases Number.readFloat? lexeme.toList <;> rfl
  | decimal lexeme =>
      rw [hnumber lexeme (by rw [h, hc]; rfl)]
      simp only [lead?, hc]
      cases Number.readFloat? lexeme.toList <;> rfl
  | dili =>
      rw [hc] at h
      simp only [lead?, h, hc, Token.tidy, Stacks.negates_eq, hd hc]
      cases operandAhead c.step.kinds <;> rfl
  | mark m =>
      rw [hc] at h
      cases m <;> simp only [lead?, h, hc, Token.tidy]
      rfl
  | op o =>
      rw [hc] at h
      rcases o with (_ | _ | _ | _ | _) | _ | _ <;> simp only [lead?, h, hc, Token.tidy]
  | name | text | oo =>
      rw [hc] at h
      simp only [lead?, h, hc, Token.tidy]
      rfl
  | _ =>
      rw [hc] at h
      simp only [lead?, h, hc, Token.tidy]

theorem lead?_of_bare {c : Cursor} {l : Lead} (h : (lead? c).map Lead.bare = some l.bare) :
    ∃ l₂, lead? c = some l₂ ∧ l₂.bare = l.bare := Option.map_eq_some_iff.1 h

/-- **An expression is read back from its own tokens**, and behind it stands what is put there. -/
theorem Reads.reparse {min : Nat} {c d : Cursor} {e : Expr} (h : Reads min c e d) :
    ∀ (c₂ : Cursor) (ts : List Token), c₂.kinds = e.tokens ++ ts → Follows d ts →
      ∃ e₂ d₂, Reads min c₂ e₂ d₂ ∧ e₂.bare = e.bare ∧ d₂.kinds = ts := by
  induction h with
  | @atom _ c e hl =>
      intro c₂ ts hk hf
      rw [show e.tokens = [c.current.tidy] from tokens_of_lead hl, List.singleton_append] at hk
      have hs := Cursor.kinds_step_of_kinds hk
      have hlead : (lead? c₂).map Lead.bare = some (Lead.atom e).bare := by
        rw [lead?_tidy (Cursor.current_of_kinds hk), hl]
        · rfl
        · intro hd
          -- the truth value `DILI` stays one, since no operand is put behind it
          have hn : operandAhead c.step.kinds = false := by
            rw [← Stacks.negates_eq]
            cases hneg : Stacks.negates c with
            | false => rfl
            | true => simp [lead?, hd, hneg] at hl
          rw [hs, hn]
          cases ho : operandAhead ts with
          | false => rfl
          | true => exact absurd (hf.operand ho) (by simp [hn])
      obtain ⟨l₂, hl₂, hb⟩ := lead?_of_bare hlead
      cases l₂ with
      | atom e₂ => exact ⟨e₂, c₂.step, .atom hl₂, (Lead.atom.inj hb), hs⟩
      | unary op => exact absurd hb (by simp [Lead.bare])
      | opening b => exact absurd hb (by simp [Lead.bare])
  | @unary _ c d op e hl hr hst ih =>
      intro c₂ ts hk hf
      have ht : op.token = c.current.tidy := (List.cons.inj (tokens_of_lead hl)).1
      rw [Expr.tokens, ht] at hk
      have hs := Cursor.kinds_step_of_kinds hk
      have hlead : (lead? c₂).map Lead.bare = some (Lead.unary op).bare := by
        rw [lead?_tidy (Cursor.current_of_kinds hk), hl]
        · rfl
        · intro hd
          -- the negation `DILI` stays one, since its operand is written behind it
          have hn : operandAhead c.step.kinds = true := by
            rw [← Stacks.negates_eq]
            cases hneg : Stacks.negates c with
            | true => rfl
            | false => simp [lead?, hd, hneg] at hl
          obtain ⟨run, hne, hrun, hks⟩ := hr.kinds_eq
          rw [hs, hn, hks]
          rw [hrun] at hn
          exact operandAhead_tidy hne hn hf.assign
      obtain ⟨l₂, hl₂, hb⟩ := lead?_of_bare hlead
      obtain ⟨e₂, d₂, hr₂, he₂, hd₂⟩ := ih c₂.step ts hs hf
      cases l₂ with
      | atom x => exact absurd hb (by simp [Lead.bare])
      | unary op₂ =>
          cases hb
          refine ⟨_, d₂, .unary hl₂ hr₂ (hf.stops_of_kinds hd₂ hst), ?_, hd₂⟩
          simp only [Expr.bare, he₂]
      | opening b => exact absurd hb (by simp [Lead.bare])
  | @group _ c d b e hl hr hcl ih =>
      intro c₂ ts hk hf
      rw [Expr.tokens, List.cons_append, List.append_assoc] at hk
      have hs := Cursor.kinds_step_of_kinds hk
      obtain ⟨e₂, d₂, hr₂, he₂, hd₂⟩ := ih c₂.step _ hs ((ends_mark rfl rfl ts).follows d)
      have hl₂ : lead? c₂ = some (.opening .round) := by
        simp only [lead?, Cursor.current_of_kinds hk]
      refine ⟨_, d₂.step, .group hl₂ hr₂ (Cursor.current_of_kinds hd₂), ?_,
        Cursor.kinds_step_of_kinds hd₂⟩
      simp only [Expr.bare, he₂]
  | @binary _ c d d' op l r hr hop hlt hr' hst ihl ihr =>
      intro c₂ ts hk hf
      -- behind the left operand stands the operator, as it did when it was first read
      rw [Expr.tokens, List.append_assoc, List.cons_append] at hk
      obtain ⟨l₂, m₂, hl₂, hbl, hm₂⟩ := ihl c₂ _ hk (follows_op hop _)
      obtain ⟨r₂, d₂, hr₂, hbr, hd₂⟩ := ihr m₂.step ts (Cursor.kinds_step_of_kinds hm₂) hf
      refine ⟨_, d₂, .binary hl₂ (Cursor.current_of_kinds hm₂) hlt hr₂
        (hf.stops_of_kinds hd₂ hst), ?_, hd₂⟩
      simp only [Expr.bare, hbl, hbr]

theorem ExprReads.reparse {c d : Cursor} {e : Expr} (h : ExprReads c e d) {c₂ : Cursor}
    {ts : List Token} (hk : c₂.kinds = e.tokens ++ ts) (hts : Ends ts) :
    ∃ e₂ d₂, ExprReads c₂ e₂ d₂ ∧ e₂.bare = e.bare ∧ d₂.kinds = ts := by
  obtain ⟨e₂, d₂, hr, hb, hd⟩ := h.1.reparse c₂ ts hk (hts.follows d)
  exact ⟨e₂, d₂, ⟨hr, (hts.follows d).stops_of_kinds hd h.2⟩, hb, hd⟩

/-! ### Several parts -/

/-- The part is read back from its own tokens wherever they stand before tokens that `E` allows. -/
def Rereads {α : Type} (R : Cursor → α → Cursor → Prop) (tokens : α → List Token) (bare : α → α)
    (E : List Token → Prop) (a : α) : Prop :=
  ∀ (c₂ : Cursor) (ts : List Token), c₂.kinds = tokens a ++ ts → E ts →
    ∃ a₂ d₂, R c₂ a₂ d₂ ∧ bare a₂ = bare a ∧ d₂.kinds = ts

section

variable {α : Type} {R : Cursor → α → Cursor → Prop} {tokens : α → List Token} {bare : α → α}

theorem many_comma_reparse {as : List α} (has : ∀ a ∈ as, Rereads R tokens bare Ends a)
    {c₂ : Cursor} {ts : List Token}
    (hk : c₂.kinds = (as.map tokens).flatMap (.mark .comma :: ·) ++ ts) (hts : Ends ts)
    (hc : ts.headD .eof ≠ .mark .comma) :
    ∃ as₂ d₂, Many atComma (fun c => R c.step) c₂ as₂ d₂ ∧ as₂.map bare = as.map bare ∧
      d₂.kinds = ts := by
  induction as generalizing c₂ with
  | nil =>
      refine ⟨[], c₂, .nil ?_, rfl, hk⟩
      rw [atComma, Cursor.current_eq, hk]
      simpa using hc
  | cons a as ih =>
      rw [List.map_cons, List.flatMap_cons, List.cons_append, List.cons_append,
        List.append_assoc] at hk
      have hends : Ends ((as.map tokens).flatMap (.mark .comma :: ·) ++ ts) := by
        cases as with
        | nil => exact hts
        | cons => exact ends_mark rfl rfl _
      obtain ⟨a₂, m₂, ha, hb, hm⟩ := has a (by simp) c₂.step _ (Cursor.kinds_step_of_kinds hk) hends
      obtain ⟨as₂, d₂, has₂, hbs, hd⟩ := ih (fun a h => has a (by simp [h])) hm
      refine ⟨a₂ :: as₂, d₂, .cons ?_ ha has₂, ?_, hd⟩
      · simp [atComma, Cursor.current_of_kinds hk]
      · simp [hb, hbs]

/-- **Parts with commas between them are read back**, if each of them is. -/
theorem CommaList.reparse {c d : Cursor} {as : List α} (h : CommaList R c as d)
    (hR : ∀ c a d, R c a d → Rereads R tokens bare Ends a) {c₂ : Cursor} {ts : List Token}
    (hk : c₂.kinds = separated (.mark .comma) (as.map tokens) ++ ts) (hts : Ends ts)
    (hc : ts.headD .eof ≠ .mark .comma) :
    ∃ as₂ d₂, CommaList R c₂ as₂ d₂ ∧ as₂.map bare = as.map bare ∧ d₂.kinds = ts := by
  obtain ⟨ha, has⟩ := h
  rename_i m a as
  rw [List.map_cons, separated, List.append_assoc] at hk
  have hends : Ends ((as.map tokens).flatMap (.mark .comma :: ·) ++ ts) := by
    cases as with
    | nil => exact hts
    | cons => exact ends_mark rfl rfl _
  obtain ⟨a₂, m₂, ha₂, hb, hm⟩ := hR c a m ha c₂ _ hk hends
  obtain ⟨as₂, d₂, has₂, hbs, hd⟩ :=
    many_comma_reparse (has.forall fun c a d h => hR c.step a d h) hm hts hc
  exact ⟨a₂ :: as₂, d₂, .intro ha₂ has₂, by simp [hb, hbs], hd⟩

end

/-! ### Parts of statements -/

theorem nameReads_of_kinds {c₂ : Cursor} {n : Name} {ts : List Token}
    (hk : c₂.kinds = .name n.text :: ts) :
    ∃ n₂, NameReads c₂ n₂ c₂.step ∧ n₂.bare = n.bare ∧ c₂.step.kinds = ts :=
  ⟨⟨n.text, c₂.span⟩, ⟨Cursor.current_of_kinds hk, rfl, rfl⟩, rfl, Cursor.kinds_step_of_kinds hk⟩

theorem rereads_name (n : Name) :
    Rereads NameReads (fun n => [.name n.text]) Name.bare Ends n := by
  intro c₂ ts hk _
  obtain ⟨n₂, hn, hb, hs⟩ := nameReads_of_kinds hk
  exact ⟨n₂, c₂.step, hn, hb, hs⟩

theorem DeclaredReads.rereads {c d : Cursor} {v : Declared} (h : DeclaredReads c v d) :
    Rereads DeclaredReads Declared.tokens Declared.bare Ends v := by
  intro c₂ ts hk hts
  cases h with
  | plain hn ha =>
      rename_i n
      obtain ⟨n₂, hn₂, hb, hs⟩ := nameReads_of_kinds (n := n) hk
      refine ⟨⟨n₂, none⟩, c₂.step, .plain hn₂ ?_, by simp [Declared.bare, hb], hs⟩
      rw [Cursor.current_eq, hs]
      exact hts.assign
  | value hn ha he =>
      rename_i m n e
      obtain ⟨n₂, hn₂, hb, hs⟩ := nameReads_of_kinds (n := n) hk
      obtain ⟨e₂, d₂, he₂, hbe, hd⟩ := he.reparse (Cursor.kinds_step_of_kinds hs) hts
      refine ⟨⟨n₂, some e₂⟩, d₂, .value hn₂ ?_ he₂, by simp [Declared.bare, hb, hbe], hd⟩
      rw [Cursor.current_of_kinds hs]
      rfl

theorem targetReads_of_kinds {c₂ : Cursor} {n : Name} {ts : List Token}
    (hk : c₂.kinds = .name n.text :: .mark .assign :: ts) :
    ∃ n₂, TargetReads c₂ n₂ c₂.step.step ∧ n₂.bare = n.bare ∧ c₂.step.step.kinds = ts := by
  obtain ⟨n₂, hn, hb, hs⟩ := nameReads_of_kinds hk
  refine ⟨n₂, ⟨hn, ?_, rfl⟩, hb, Cursor.kinds_step_of_kinds hs⟩
  rw [Cursor.current_of_kinds hs]
  rfl

theorem atTarget_eq (c : Cursor) :
    c.atTarget = ((c.kinds.headD .eof).isName && (c.kinds.tail.headD .eof).isAssign) := by
  rw [Cursor.atTarget, Cursor.peek_eq, Cursor.current_eq, Cursor.current_eq, Cursor.kinds_step]

/-- A value that was no further target is none where it is written back. -/
theorem ExprReads.atTarget_eq_false {c d : Cursor} {e : Expr} (h : ExprReads c e d)
    (ht : c.atTarget = false) {c₂ : Cursor} {ts : List Token} (hk : c₂.kinds = e.tokens ++ ts)
    (hts : Ends ts) : c₂.atTarget = false := by
  obtain ⟨run, hne, hrun, hks⟩ := h.1.kinds_eq
  have ha := hts.assign
  rw [atTarget_eq, hrun] at ht
  rw [atTarget_eq, hk, hks]
  match run, hne with
  | [t], _ =>
      simp only [List.map_cons, List.map_nil, List.cons_append, List.nil_append, List.tail_cons, ha,
        Bool.and_false]
  | t :: u :: run, _ =>
      simp only [List.map_cons, List.cons_append, List.tail_cons, List.headD_cons,
        Token.isName_tidy, Token.isAssign_tidy] at ht ⊢
      exact ht

theorem targets_reparse {ns : List Name} {c₂ : Cursor} {ts : List Token}
    (hk : c₂.kinds = ns.flatMap (fun n => [.name n.text, .mark .assign]) ++ ts)
    (hts : ∀ d₂ : Cursor, d₂.kinds = ts → d₂.atTarget = false) :
    ∃ ns₂ d₂, Many Cursor.atTarget TargetReads c₂ ns₂ d₂ ∧ ns₂.map Name.bare = ns.map Name.bare ∧
      d₂.kinds = ts := by
  induction ns generalizing c₂ with
  | nil => exact ⟨[], c₂, .nil (hts c₂ hk), rfl, hk⟩
  | cons n ns ih =>
      rw [List.flatMap_cons, List.append_assoc] at hk
      obtain ⟨n₂, hn, hb, hs⟩ := targetReads_of_kinds hk
      obtain ⟨ns₂, d₂, hns, hbs, hd⟩ := ih hs
      refine ⟨n₂ :: ns₂, d₂, .cons ?_ hn hns, by simp [hb, hbs], hd⟩
      rw [atTarget_eq, hk]
      rfl

theorem AssignmentReads.reparse {c d : Cursor} {a : Assignment} (h : AssignmentReads c a d)
    {c₂ : Cursor} {ts : List Token} (hk : c₂.kinds = a.tokens ++ ts) (hts : Ends ts) :
    ∃ a₂ d₂, AssignmentReads c₂ a₂ d₂ ∧ a₂.bare = a.bare ∧ d₂.kinds = ts := by
  obtain ⟨-, hns, he⟩ := h
  rename_i m' n ns e
  rw [Assignment.tokens, List.flatMap_cons, List.append_assoc, List.append_assoc] at hk
  obtain ⟨n₂, hn₂, hb, hs⟩ := targetReads_of_kinds hk
  obtain ⟨ns₂, m₂, hns₂, hbs, hm₂⟩ := targets_reparse hs
    fun d₂ hd₂ => he.atTarget_eq_false hns.more_eq_false hd₂ hts
  obtain ⟨e₂, d₂, he₂, hbe, hd⟩ := he.reparse hm₂ hts
  exact ⟨_, d₂, .intro hn₂ hns₂ he₂, by simp [Assignment.bare, hb, hbs, hbe], hd⟩

theorem TestReads.reparse {c d : Cursor} {e : Expr} (h : TestReads c e d) {c₂ : Cursor}
    {ts : List Token} (hk : c₂.kinds = .mark .lparen :: (e.tokens ++ .mark .rparen :: ts)) :
    ∃ e₂ d₂, TestReads c₂ e₂ d₂ ∧ e₂.bare = e.bare ∧ d₂.kinds = ts := by
  obtain ⟨-, he, -⟩ := h
  obtain ⟨e₂, m₂, he₂, hb, hm⟩ := he.reparse (Cursor.kinds_step_of_kinds hk) (ends_mark rfl rfl ts)
  exact ⟨e₂, m₂.step, .intro (Cursor.current_of_kinds hk) he₂ (Cursor.current_of_kinds hm), hb,
    Cursor.kinds_step_of_kinds hm⟩

theorem LoopHead.reparse {c d : Cursor} {first : Assignment} {test : Expr} {counter : Name}
    {step : Step} (h : LoopHead c first test counter step d) {c₂ : Cursor} {ts : List Token}
    (hk : c₂.kinds = .word .alang :: .word .sa :: .mark .lparen :: (first.tokens ++ .mark .comma ::
      (test.tokens ++ .mark .comma :: .name counter.text :: .step step :: .mark .rparen :: ts))) :
    ∃ first₂ test₂ counter₂ d₂, LoopHead c₂ first₂ test₂ counter₂ step d₂ ∧
      first₂.bare = first.bare ∧ test₂.bare = test.bare ∧ counter₂.bare = counter.bare ∧
      d₂.kinds = ts := by
  obtain ⟨-, -, -, ha, -, he, -, -, -, -, -⟩ := h
  have h₁ := Cursor.kinds_step_of_kinds hk
  have h₂ := Cursor.kinds_step_of_kinds h₁
  have h₃ := Cursor.kinds_step_of_kinds h₂
  obtain ⟨first₂, m₂, ha₂, hba, hm₂⟩ := ha.reparse h₃ (ends_mark rfl rfl _)
  obtain ⟨test₂, m₃, he₂, hbe, hm₃⟩ :=
    he.reparse (Cursor.kinds_step_of_kinds hm₂) (ends_mark rfl rfl _)
  obtain ⟨counter₂, hn₂, hbn, h₄⟩ := nameReads_of_kinds (Cursor.kinds_step_of_kinds hm₃)
  have h₅ := Cursor.kinds_step_of_kinds h₄
  refine ⟨first₂, test₂, counter₂, _, .intro (Cursor.current_of_kinds hk)
    (Cursor.current_of_kinds h₁) (Cursor.current_of_kinds h₂) ha₂ (Cursor.current_of_kinds hm₂) he₂
    (Cursor.current_of_kinds hm₃) hn₂ (Cursor.current_of_kinds h₄) (Cursor.current_of_kinds h₅) rfl,
    hba, hbe, hbn, Cursor.kinds_step_of_kinds h₅⟩

/-! ### What stands behind a statement -/

/-- No statement goes on with the tokens: a block or a program ends, or the next statement starts. -/
inductive Boundary : List Token → Prop
  | brace (ts : List Token) : Boundary (.mark .rbrace :: ts)
  | word {w : Keyword} {ts : List Token} : (w = .kung → ts.headD .eof = .mark .lparen) →
      Boundary (.word w :: ts)
  | target {name : String} {t : Token} {ts : List Token} : t.isAssign = true →
      Boundary (.name name :: t :: ts)

theorem Boundary.ends {ts : List Token} (h : Boundary ts) : Ends ts := by
  cases h with
  | brace ts => exact ends_mark rfl rfl ts
  | word _ => exact ⟨rfl, rfl, by simp⟩
  | target ha => exact ⟨by simp [operandAhead, Token.isName, ha], rfl, by simp⟩

theorem Boundary.ne_comma {ts : List Token} (h : Boundary ts) : ts.headD .eof ≠ .mark .comma := by
  cases h <;> simp

theorem Boundary.not_atKung {ts : List Token} (h : Boundary ts) {c : Cursor} (hk : c.kinds = ts)
    {t : Token} (ht : t ≠ .mark .lparen) : atKung t c = false := by
  rw [atKung, Cursor.peek_eq, Cursor.current_eq, Cursor.current_eq, Cursor.kinds_step, hk]
  cases h with
  | brace _ => rfl
  | @word w ts hw =>
      by_cases hkung : w = .kung
      · rw [List.tail_cons, hw hkung]
        simp [Ne.symm ht]
      · simp [hkung]
  | target _ => rfl

theorem Boundary.itemRule_eq {ts : List Token} (h : Boundary ts) {c : Cursor} (hk : c.kinds = ts) :
    itemRule false c = .stop := by
  cases h with
  | brace _ => simp only [itemRule, Cursor.current_of_kinds hk]
  | word _ => simp only [itemRule, Cursor.current_of_kinds hk]
  | target ha =>
      have hp := Cursor.current_of_kinds (Cursor.kinds_step_of_kinds hk)
      simp [itemRule, Cursor.current_of_kinds hk, Cursor.peek_eq, hp, ha]

/-! ### Print items -/

/-- A token that may be the first operand of a printed expression, or an item of its own. -/
def Token.isPlainOperand : Token → Bool
  | .integer _ | .decimal _ | .name _ => true
  | _ => false

theorem itemRule_eq_expression {escaped : Bool} {c : Cursor} :
    itemRule escaped c = .expression ↔ escaped = false ∧ (c.current = .mark .lparen ∨
      (c.current.isPlainOperand = true ∧ c.peek.isArithmetic = true)) := by
  have hassign : ∀ t : Token, t.isArithmetic = true → t.isAssign = false := by
    intro t ht
    cases t <;> simp_all [Token.isArithmetic, Token.isAssign]
  cases escaped with
  | true =>
      simp only [itemRule, Bool.true_eq_false, false_and, iff_false]
      cases hc : c.current with
      | mark m => cases m <;> simp
      | _ => simp
  | false =>
      simp only [itemRule, true_and]
      cases hc : c.current with
      | mark m => cases m <;> simp [Token.isPlainOperand]
      | integer | decimal => simp [Token.isPlainOperand]
      | name text =>
          have ha := hassign c.peek
          cases hp : c.peek.isArithmetic <;> cases hq : c.peek.isAssign <;>
            simp_all [Token.isPlainOperand]
      | _ => simp [Token.isPlainOperand]

/-- An expression that was printed is taken for one again, by its first two tokens. -/
theorem itemRule_reparse {c d : Cursor} {escaped : Bool} {e : Expr} (h : ExprReads c e d)
    (hr : itemRule escaped c = .expression) {c₂ : Cursor} {ts : List Token}
    (hk : c₂.kinds = e.tokens ++ ts) : itemRule false c₂ = .expression := by
  obtain ⟨run, hne, hrun, hks⟩ := h.1.kinds_eq
  obtain ⟨t, run, rfl⟩ := List.exists_cons_of_ne_nil hne
  rw [hks, List.map_cons, List.cons_append] at hk
  rw [List.cons_append] at hrun
  have hc := Cursor.current_of_kinds hk
  refine itemRule_eq_expression.2 ⟨rfl, ?_⟩
  rcases (itemRule_eq_expression.1 hr).2 with hp | ⟨ho, ha⟩
  · rw [Cursor.current_of_kinds hrun] at hp
    exact .inl (by rw [hc, hp]; rfl)
  · rw [Cursor.current_of_kinds hrun] at ho
    rw [Cursor.peek_eq, Cursor.current_eq, Cursor.kinds_step_of_kinds hrun] at ha
    have ht : t.tidy.isPlainOperand = true :=
      (Token.apply_tidy (f := Token.isPlainOperand) rfl rfl rfl (fun _ => rfl) t).trans ho
    refine .inr ⟨by rw [hc, ht], ?_⟩
    rw [Cursor.peek_eq, Cursor.current_eq, Cursor.kinds_step_of_kinds hk]
    cases run with
    | nil =>
        -- the expression would end before an operator
        rw [List.nil_append, ← Cursor.current_eq] at ha
        cases hd : d.current with
        | op op => exact absurd (h.2 op hd) (Nat.not_le.2 (precedence_pos op))
        | _ => simp [hd, Token.isArithmetic] at ha
    | cons u run =>
        rw [List.map_cons, List.cons_append, List.headD_cons]
        exact (Token.apply_tidy (f := Token.isArithmetic) rfl rfl rfl (fun _ => rfl) u).trans ha

/-- An item of one token is read back as itself. -/
theorem itemRule_item {escaped : Bool} {c : Cursor} {i : PrintItem}
    (h : itemRule escaped c = .item i) {c₂ : Cursor} {ts : List Token}
    (hk : c₂.kinds = i.tokens ++ ts) (hts : Ends ts) :
    ∃ i₂, itemRule false c₂ = .item i₂ ∧ i₂.bare = i.bare ∧ c₂.step.kinds = ts := by
  cases i with
  | text content span =>
      refine ⟨.text content c₂.span, ?_, rfl, Cursor.kinds_step_of_kinds hk⟩
      simp only [itemRule, Cursor.current_of_kinds hk]
      rfl
  | var name =>
      refine ⟨.var ⟨name.text, c₂.span⟩, ?_, rfl, Cursor.kinds_step_of_kinds hk⟩
      have hp : c₂.peek = ts.headD .eof := by
        rw [Cursor.peek_eq, Cursor.current_eq, Cursor.kinds_step_of_kinds hk]
        rfl
      have ha : (ts.headD .eof).isArithmetic = false := by
        cases ht : ts.headD .eof with
        | op op => exact absurd ht (hts.operator op)
        | _ => rfl
      simp only [itemRule, Cursor.current_of_kinds hk, hp, ha, hts.assign, Bool.false_eq_true,
        if_false]
  | expr e =>
      -- no single token is an expression
      exfalso
      unfold itemRule at h
      split at h <;> repeat' split at h
      all_goals exact absurd h (by simp)
  | lineBreak span =>
      refine ⟨.lineBreak c₂.span, ?_, rfl, Cursor.kinds_step_of_kinds hk⟩
      simp only [itemRule, Cursor.current_of_kinds hk]
      rfl

/-- The tokens behind an item: the separator and the next item, or what stands behind the
statement. -/
theorem ends_items {is : List PrintItem} {ts : List Token} (hts : Boundary ts) :
    Ends ((is.map PrintItem.tokens).flatMap (.mark .ampersand :: ·) ++ ts) := by
  cases is with
  | nil => exact hts.ends
  | cons => exact ends_mark rfl rfl _

/-- Items are read back behind a separator as they are at the start. -/
theorem items_of_separated {is : List PrintItem} {ts : List Token}
    (h : ∀ c₂ : Cursor, c₂.kinds =
      separated (.mark .ampersand) (is.map PrintItem.tokens) ++ ts →
      ∃ is₂ d₂, Items false c₂ is₂ d₂ ∧ is₂.map PrintItem.bare = is.map PrintItem.bare ∧
        d₂.kinds = ts) {c₂ : Cursor}
    (hk : c₂.kinds = (is.map PrintItem.tokens).flatMap (.mark .ampersand :: ·) ++ ts) :
    ∃ is₂ d₂, Items false c₂ is₂ d₂ ∧ is₂.map PrintItem.bare = is.map PrintItem.bare ∧
      d₂.kinds = ts := by
  cases is with
  | nil => exact h c₂ hk
  | cons i is =>
      rw [List.map_cons, List.flatMap_cons, List.cons_append, List.cons_append] at hk
      obtain ⟨is₂, d₂, his, hb, hd⟩ := h c₂.step (Cursor.kinds_step_of_kinds hk)
      refine ⟨is₂, d₂, .skip ?_ his, hb, hd⟩
      simp only [itemRule, Cursor.current_of_kinds hk]
      rfl

/-- **The items of a print statement are read back** from their own tokens. -/
theorem Items.reparse {escaped : Bool} {c d : Cursor} {is : List PrintItem}
    (h : Items escaped c is d) {ts : List Token} (hts : Boundary ts) :
    ∀ c₂ : Cursor, c₂.kinds = separated (.mark .ampersand) (is.map PrintItem.tokens) ++ ts →
      ∃ is₂ d₂, Items false c₂ is₂ d₂ ∧ is₂.map PrintItem.bare = is.map PrintItem.bare ∧
        d₂.kinds = ts := by
  induction h with
  | stop _ =>
      intro c₂ hk
      exact ⟨[], c₂, .stop (hts.itemRule_eq hk), rfl, hk⟩
  | escape _ _ ih => exact ih
  | skip _ _ ih => exact ih
  | item hr _ ih =>
      intro c₂ hk
      rw [List.map_cons, separated, List.append_assoc] at hk
      obtain ⟨i₂, hr₂, hb, hs⟩ := itemRule_item hr hk (ends_items hts)
      obtain ⟨is₂, d₂, his, hbs, hd⟩ := items_of_separated ih hs
      exact ⟨i₂ :: is₂, d₂, .item hr₂ his, by simp [hb, hbs], hd⟩
  | expression hr he _ ih =>
      intro c₂ hk
      rw [List.map_cons, separated, List.append_assoc] at hk
      obtain ⟨e₂, m₂, he₂, hb, hm⟩ := he.reparse hk (ends_items hts)
      obtain ⟨is₂, d₂, his, hbs, hd⟩ := items_of_separated ih hm
      refine ⟨.expr e₂ :: is₂, d₂, .expression (itemRule_reparse he hr hk) he₂ his, ?_, hd⟩
      simp [PrintItem.bare, hb, hbs]

/-! ### Statements and what holds them -/

/-- The tokens of a tree with statements in it. -/
def Node.tokens : Node → List Token
  | .stmt s => s.tokens
  | .block b => b.tokens
  | .rest o => o.tokens
  | .body _ ss => bodyTokens ss

/-- The tree without its places. -/
def Node.bare : Node → Node
  | .stmt s => .stmt s.bare
  | .block b => .block b.bare
  | .rest o => .rest o.bare
  | .body stop ss => .body stop (bareBody ss)

/-- The tokens that may stand behind a tree where it is read back. -/
def Node.EndsAt : Node → List Token → Prop
  | .stmt _, ts | .rest _, ts => Boundary ts
  | .block _, _ => True
  | .body stop _, ts => ts.headD .eof = stop ∧ Boundary ts

theorem Node.eq_stmt_of_bare {n : Node} {s : Stmt} (h : n.bare = (Node.stmt s).bare) :
    ∃ s₂, n = .stmt s₂ ∧ s₂.bare = s.bare := by
  cases n with
  | stmt s₂ => exact ⟨s₂, rfl, Node.stmt.inj h⟩
  | _ => exact absurd h (by simp [Node.bare])

theorem Node.eq_block_of_bare {n : Node} {b : Block} (h : n.bare = (Node.block b).bare) :
    ∃ b₂, n = .block b₂ ∧ b₂.bare = b.bare := by
  cases n with
  | block b₂ => exact ⟨b₂, rfl, Node.block.inj h⟩
  | _ => exact absurd h (by simp [Node.bare])

theorem Node.eq_rest_of_bare {n : Node} {o : Otherwise} (h : n.bare = (Node.rest o).bare) :
    ∃ o₂, n = .rest o₂ ∧ o₂.bare = o.bare := by
  cases n with
  | rest o₂ => exact ⟨o₂, rfl, Node.rest.inj h⟩
  | _ => exact absurd h (by simp [Node.bare])

theorem Node.eq_body_of_bare {n : Node} {stop : Token} {ss : List Stmt}
    (h : n.bare = (Node.body stop ss).bare) :
    ∃ ss₂, n = .body stop ss₂ ∧ bareBody ss₂ = bareBody ss := by
  cases n with
  | body stop₂ ss₂ =>
      obtain ⟨rfl, hb⟩ := Node.body.inj h
      exact ⟨ss₂, rfl, hb⟩
  | _ => exact absurd h (by simp [Node.bare])

/-- A statement starts with the token that it was read from, and no statement before it goes on with
its tokens. -/
theorem Derives.starts {c d : Cursor} {s : Stmt} (h : Derives c (.stmt s) d) (ts : List Token) :
    (s.tokens ++ ts).headD .eof = c.current ∧ Boundary (s.tokens ++ ts) := by
  cases h with
  | declaration hc _ _ => exact ⟨hc.symm, .word (by simp)⟩
  | assignment ha =>
      obtain ⟨⟨⟨hc, -, -⟩, -, -⟩, -, -⟩ := ha
      exact ⟨hc.symm, .target rfl⟩
  | print hc _ _ => exact ⟨hc.symm, .word (by simp)⟩
  | input hc _ _ => exact ⟨hc.symm, .word (by simp)⟩
  | conditional hc _ _ _ => exact ⟨hc.symm, .word fun _ => rfl⟩
  | loop hh _ =>
      obtain ⟨hc, -, -, -, -, -, -, -, -, -, -⟩ := hh
      exact ⟨hc.symm, .word (by simp)⟩

theorem boundary_body {c d : Cursor} {stop : Token} {ss : List Stmt}
    (h : Derives c (.body stop ss) d) {ts : List Token} (hts : Boundary ts) :
    Boundary (bodyTokens ss ++ ts) := by
  cases h with
  | nil _ => exact hts
  | cons _ hs _ =>
      rw [bodyTokens, List.append_assoc]
      exact (hs.starts _).2

theorem atKung_of_kinds {c : Cursor} {t : Token} {ts : List Token}
    (hk : c.kinds = .word .kung :: t :: ts) : atKung t c = true := by
  rw [atKung, Cursor.peek_eq, Cursor.current_of_kinds hk,
    Cursor.current_of_kinds (Cursor.kinds_step_of_kinds hk)]
  simp

/-- **Statements, blocks and branches are read back** from their own tokens.  The induction is on the
derivation that they were first read by. -/
theorem Derives.reparse {c d : Cursor} {n : Node} (h : Derives c n d) :
    ∀ (c₂ : Cursor) (ts : List Token), c₂.kinds = n.tokens ++ ts → n.EndsAt ts →
      ∃ n₂ d₂, Derives c₂ n₂ d₂ ∧ n₂.bare = n.bare ∧ d₂.kinds = ts := by
  induction h with
  | @declaration c d type vars hc ht hv =>
      intro c₂ ts hk hts
      have h₁ := Cursor.kinds_step_of_kinds hk
      obtain ⟨vars₂, d₂, hv₂, hb, hd⟩ := hv.reparse (fun _ _ _ h => h.rereads)
        (Cursor.kinds_step_of_kinds h₁) hts.ends hts.ne_comma
      exact ⟨_, d₂, .declaration (Cursor.current_of_kinds hk) (Cursor.current_of_kinds h₁) hv₂,
        by simp [Node.bare, Stmt.bare, hb], hd⟩
  | assignment ha =>
      intro c₂ ts hk hts
      obtain ⟨a₂, d₂, ha₂, hb, hd⟩ := ha.reparse hk hts.ends
      exact ⟨_, d₂, .assignment ha₂, by simp [Node.bare, Stmt.bare, hb], hd⟩
  | print _ _ hi =>
      intro c₂ ts hk hts
      have h₁ := Cursor.kinds_step_of_kinds hk
      obtain ⟨is₂, d₂, hi₂, hb, hd⟩ := hi.reparse hts _ (Cursor.kinds_step_of_kinds h₁)
      exact ⟨_, d₂, .print (Cursor.current_of_kinds hk) (Cursor.current_of_kinds h₁) hi₂,
        by simp [Node.bare, Stmt.bare, hb], hd⟩
  | input _ _ hn =>
      intro c₂ ts hk hts
      have h₁ := Cursor.kinds_step_of_kinds hk
      obtain ⟨names₂, d₂, hn₂, hb, hd⟩ := hn.reparse (fun _ n _ _ => rereads_name n)
        (Cursor.kinds_step_of_kinds h₁) hts.ends hts.ne_comma
      exact ⟨_, d₂, .input (Cursor.current_of_kinds hk) (Cursor.current_of_kinds h₁) hn₂,
        by simp [Node.bare, Stmt.bare, hb], hd⟩
  | @conditional c m m' d test body rest hc ht _ _ ihb ihr =>
      intro c₂ ts hk hts
      simp only [Node.tokens, Stmt.tokens, List.cons_append, List.append_assoc] at hk
      obtain ⟨test₂, m₂, ht₂, hbt, hm₂⟩ := ht.reparse (Cursor.kinds_step_of_kinds hk)
      obtain ⟨n₂, m₃, hb₂, heq, hm₃⟩ := ihb m₂ _ hm₂ trivial
      obtain ⟨body₂, rfl, hbb⟩ := Node.eq_block_of_bare heq
      obtain ⟨n₂, d₂, hr₂, heq, hd₂⟩ := ihr m₃ ts hm₃ hts
      obtain ⟨rest₂, rfl, hbr⟩ := Node.eq_rest_of_bare heq
      exact ⟨_, d₂, .conditional (Cursor.current_of_kinds hk) ht₂ hb₂ hr₂,
        by simp [Node.bare, Stmt.bare, hbt, hbb, hbr], hd₂⟩
  | @loop c m d first test counter step body hh _ ih =>
      intro c₂ ts hk hts
      simp only [Node.tokens, Stmt.tokens, List.cons_append, List.append_assoc] at hk
      obtain ⟨first₂, test₂, counter₂, m₂, hh₂, hbf, hbt, hbc, hm₂⟩ := hh.reparse hk
      obtain ⟨n₂, d₂, hb₂, heq, hd₂⟩ := ih m₂ ts hm₂ trivial
      obtain ⟨body₂, rfl, hbb⟩ := Node.eq_block_of_bare heq
      exact ⟨_, d₂, .loop hh₂ hb₂, by simp [Node.bare, Stmt.bare, hbf, hbt, hbc, hbb], hd₂⟩
  | @block c m ss hc hl _ hr ih =>
      intro c₂ ts hk _
      simp only [Node.tokens, Block.tokens, List.cons_append, List.append_assoc,
        List.nil_append] at hk
      have h₁ := Cursor.kinds_step_of_kinds hk
      obtain ⟨n₂, m₂, hs₂, heq, hm₂⟩ := ih c₂.step.step _ (Cursor.kinds_step_of_kinds h₁)
        ⟨rfl, .brace ts⟩
      obtain ⟨ss₂, rfl, hbs⟩ := Node.eq_body_of_bare heq
      exact ⟨_, m₂.step, .block (Cursor.current_of_kinds hk) (Cursor.current_of_kinds h₁) hs₂
        (Cursor.current_of_kinds hm₂), by simp [Node.bare, Block.bare, hbs],
        Cursor.kinds_step_of_kinds hm₂⟩
  | nothing _ _ =>
      intro c₂ ts hk hts
      exact ⟨.rest .nothing, c₂, .nothing (hts.not_atKung hk (by simp))
        (hts.not_atKung hk (by simp)), rfl, hk⟩
  | @branch c m m' d test body rest hc ht _ _ ihb ihr =>
      intro c₂ ts hk hts
      simp only [Node.tokens, Otherwise.tokens, List.cons_append, List.append_assoc] at hk
      have h₁ := Cursor.kinds_step_of_kinds hk
      obtain ⟨test₂, m₂, ht₂, hbt, hm₂⟩ := ht.reparse (Cursor.kinds_step_of_kinds h₁)
      obtain ⟨n₂, m₃, hb₂, heq, hm₃⟩ := ihb m₂ _ hm₂ trivial
      obtain ⟨body₂, rfl, hbb⟩ := Node.eq_block_of_bare heq
      obtain ⟨n₂, d₂, hr₂, heq, hd₂⟩ := ihr m₃ ts hm₃ hts
      obtain ⟨rest₂, rfl, hbr⟩ := Node.eq_rest_of_bare heq
      exact ⟨_, d₂, .branch (atKung_of_kinds hk) ht₂ hb₂ hr₂,
        by simp [Node.bare, Otherwise.bare, hbt, hbb, hbr], hd₂⟩
  | always _ _ ih =>
      intro c₂ ts hk hts
      simp only [Node.tokens, Otherwise.tokens, List.cons_append] at hk
      have h₁ := Cursor.kinds_step_of_kinds hk
      obtain ⟨n₂, d₂, hb₂, heq, hd₂⟩ := ih c₂.step.step ts (Cursor.kinds_step_of_kinds h₁) trivial
      obtain ⟨body₂, rfl, hbb⟩ := Node.eq_block_of_bare heq
      exact ⟨_, d₂, .always (atKung_of_kinds hk) hb₂,
        by simp [Node.bare, Otherwise.bare, hbb], hd₂⟩
  | @nil c stop hm =>
      intro c₂ ts hk hts
      refine ⟨.body stop [], c₂, .nil ?_, rfl, hk⟩
      rw [moreBefore, Cursor.current_eq, show c₂.kinds = ts from hk, hts.1]
      simp
  | @cons c m d stop s ss hm hs hss ihs ihb =>
      intro c₂ ts hk hts
      rw [Node.tokens, bodyTokens, List.append_assoc] at hk
      -- a statement starts with the token that it was first read from
      have hstart : c₂.current = c.current := by
        rw [Cursor.current_eq, hk]
        exact (hs.starts _).1
      obtain ⟨n₂, m₂, hs₂, heq, hm₂⟩ := ihs c₂ _ hk (boundary_body hss hts.2)
      obtain ⟨s₂, rfl, hbs⟩ := Node.eq_stmt_of_bare heq
      obtain ⟨n₂, d₂, hss₂, heq, hd₂⟩ := ihb m₂ ts hm₂ hts
      obtain ⟨ss₂, rfl, hbss⟩ := Node.eq_body_of_bare heq
      refine ⟨_, d₂, .cons ?_ hs₂ hss₂, by simp [Node.bare, bareBody, hbs, hbss], hd₂⟩
      rw [moreBefore, hstart]
      exact hm

/-! ### Programs -/

/-- **A program is read back from its own tokens**, and behind it stands what is put there. -/
theorem ProgramReads.reparse {c d : Cursor} {p : Program} (h : ProgramReads c p d) {c₂ : Cursor}
    {ts : List Token} (hk : c₂.kinds = p.tokens ++ ts) :
    ∃ p₂ d₂, ProgramReads c₂ p₂ d₂ ∧ p₂.bare = p.bare ∧ d₂.kinds = ts := by
  obtain ⟨-, hss, -⟩ := h
  simp only [Program.tokens, List.cons_append, List.append_assoc, List.nil_append] at hk
  obtain ⟨n₂, m₂, hs₂, heq, hm₂⟩ := hss.reparse c₂.step _ (Cursor.kinds_step_of_kinds hk)
    ⟨rfl, .word (by simp)⟩
  obtain ⟨ss₂, rfl, hbs⟩ := Node.eq_body_of_bare heq
  exact ⟨_, m₂.step, .intro (Cursor.current_of_kinds hk) hs₂ (Cursor.current_of_kinds hm₂),
    by simp [Program.bare, hbs], Cursor.kinds_step_of_kinds hm₂⟩

theorem trailing_of_kinds {d : Cursor} (hk : d.kinds = [.eof]) : d.trailing = none := by
  unfold Cursor.trailing
  rw [if_pos (Cursor.current_of_kinds hk)]

/-- What reads a program and nothing behind it reads the same program from its own tokens, wherever
they stand. -/
theorem parseTokens_tokens {c d : Cursor} {p : Program} (h : ProgramReads c p d)
    {ts : List Spanned} (hts : ts.map Spanned.token = p.tokens ++ [.eof]) :
    ∃ p₂, parseTokens ts = .ok p₂ ∧ p₂.program.bare = p.bare ∧ p₂.trailing = none := by
  have hk : (Cursor.start ts).kinds = p.tokens ++ [.eof] := hts
  obtain ⟨p₂, d₂, hp₂, hb, hd₂⟩ := h.reparse hk
  exact ⟨⟨p₂, none⟩, parseTokens_eq_ok.2 ⟨d₂, hp₂, (trailing_of_kinds hd₂).symm⟩, hb, rfl⟩

/-- Whatever tokens a program was read from, its own tokens, at any places and with the end behind
them, are read as the same program but for the places, and as nothing more. -/
theorem canonical_tokens_reparse {ts ts₂ : List Spanned} {p : Parsed} (h : parseTokens ts = .ok p)
    (hts : ts₂.map Spanned.token = p.program.tokens ++ [.eof]) :
    ∃ p₂, parseTokens ts₂ = .ok p₂ ∧ p₂.program.bare = p.program.bare ∧ p₂.trailing = none := by
  obtain ⟨d, hp, -⟩ := parseTokens_eq_ok.1 h
  exact parseTokens_tokens hp hts

/-- Tokens that stand nowhere. -/
def unplaced (ts : List Token) : List Spanned := ts.map fun t => ⟨.point 0, t⟩

theorem map_token_unplaced (ts : List Token) : (unplaced ts).map Spanned.token = ts := by
  simp [unplaced, Function.comp_def]

/-- A program with square brackets, both marks of assignment, `DILI` in all its meanings, items with
and without separators and an escape, and a token behind the program. -/
def mixedTokens : List Spanned :=
  unplaced [.word .sugod, .name "x", .mark .colonAssign, .name "y", .mark .assign, .dili,
    .mark .lbracket, .op (.arithmetic .sub), .op (.arithmetic .sub), .name "z", .mark .rbracket,
    .word .ipakita, .mark .colon, .name "x", .mark .lbracket, .mark .ampersand, .mark .rbracket,
    .mark .dollar, .name "y", .op (.arithmetic .add), .dili, .word .kung, .mark .lparen, .dili,
    .mark .rparen, .word .pundok, .mark .lbrace, .mark .rbrace, .word .kung, .dili, .mark .lparen,
    .name "x", .mark .rparen, .word .pundok, .mark .lbrace, .mark .rbrace, .word .katapusan,
    .name "x", .eof]

theorem canonical_tokens_reparse_mixed :
    ∃ p, parseTokens mixedTokens = .ok p ∧
      ∃ p₂, parseTokens (unplaced (p.program.tokens ++ [.eof])) = .ok p₂ ∧
        p₂.program.bare = p.program.bare ∧ p₂.trailing = none :=
  ⟨_, rfl, @canonical_tokens_reparse mixedTokens _ _ rfl (map_token_unplaced _)⟩

end BisayaLang
