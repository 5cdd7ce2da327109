/-
**Evaluation comes to an end.**

On a draft, where any token may stand as an operator, the evaluators hand questions on to each other, also
about one and the same node: asked for a number, a node whose token is no sign is asked for its truth
value, and asked for a truth value, one whose token is no `DILI` is asked for its number.  Nothing in
this gets smaller, and at a node with some other token the two questions go round in circles for ever.

What each call does is written down as a *plan*: the calls that it makes and what it does with the
answers.  One and the same plan is run, with a bound on the depth of the calls, and says which calls can
be open at one time.  On a sound draft every call is made at a lower rank than the one that makes it, so
that a stack of open calls never holds a call twice and every call is answered.  The answers are those of
the evaluators of expressions.

Main definitions:

* `BisayaLang.Call`, `BisayaLang.Call.plan` — an evaluator with what it is asked about, and what it does;
* `BisayaLang.Call.answerF` — the answer to a call, if so many calls may be open at one time;
* `BisayaLang.Call.Asks` — one call makes another;
* `BisayaLang.Call.rank` — how many calls may be open inside a call.

Main results:

* `BisayaLang.Call.Sound.asks` — a call on a sound draft makes calls of lower rank on sound drafts;
* `BisayaLang.Call.Sound.nodup_stack` — **no call is open twice**;
* `BisayaLang.Expr.answers` — calls on the draft of an expression are answered by its evaluators;
* `BisayaLang.Call.unanswered_of_stray` — at other tokens the calls come to no end;
* `BisayaLang.evaluation_of_drafts_ends` — **what can be read can be evaluated**.
-/

import BisayaLang.Execution.Evaluate
import BisayaLang.Proofs.Grammar.Drafts
import Mathlib.Data.List.Chain

set_option relaxedAutoImplicit false
set_option autoImplicit false

namespace BisayaLang

/-! ### Calls and plans -/

/-- An evaluator, with what it is asked about.  The two operations on numbers and on values that have an
evaluator of their own are asked about a node in its parts. -/
inductive Call where
  | number (d : Draft)
  | truth (d : Draft)
  | value (d : Draft)
  | arithmetic (op : Token) (left right : Draft) (span : Span)
  | comparison (op : Comparison) (left right : Draft) (span : Span)

/-- What the answer to a call is. -/
def Call.Answer : Call → Type
  | .number _ | .arithmetic .. => Float
  | .truth _ | .comparison .. => Bool
  | .value _ => Value

/-- Why a call is not answered. -/
inductive Silence where
  /-- the evaluation fails -/
  | fault (e : RuntimeError)
  /-- a token is taken for an operator that it is not -/
  | unreachable
  /-- the calls have not come to an end -/
  | unfinished

/-- The answer to a call, or why there is none. -/
abbrev Reply (α : Type) := Except Silence α

/-- A result of an evaluation as a reply. -/
def Reply.ofEval {α : Type} (r : Eval α) : Reply α := r.mapError .fault

/-- What a call does: it stops with a reply, or makes another call and goes on with the answer. -/
inductive Plan (α : Type) where
  | stop (r : Reply α)
  | ask (k : Call) (next : k.Answer → Plan α)

namespace Plan

variable {α : Type}

/-- Stops with an answer. -/
def answer (a : α) : Plan α := .stop (.ok a)

/-- Carries a plan out, by the replies to the calls that it makes. -/
def run (reply : (k : Call) → Reply k.Answer) : Plan α → Reply α
  | .stop r => r
  | .ask k next =>
      match reply k with
      | .ok a => (next a).run reply
      | .error e => .error e

/-- The plan may make the call. -/
inductive Makes (k : Call) : Plan α → Prop
  | now {next : k.Answer → Plan α} : Makes k (.ask k next)
  | later {k' : Call} {next : k'.Answer → Plan α} (a : k'.Answer) : Makes k (next a) →
      Makes k (.ask k' next)

/-- The plan makes calls of some kind only. -/
def MakesOnly (P : Call → Prop) (p : Plan α) : Prop := ∀ k, p.Makes k → P k

namespace MakesOnly

variable {P : Call → Prop}

theorem stop (r : Reply α) : MakesOnly P (.stop r) := fun _ h => nomatch h

theorem answer (a : α) : MakesOnly P (.answer a) := stop _

theorem ask {k : Call} {next : k.Answer → Plan α} (hk : P k) (hnext : ∀ a, MakesOnly P (next a)) :
    MakesOnly P (.ask k next) := by
  intro k' h
  cases h with
  | now => exact hk
  | later a h => exact hnext a k' h

end MakesOnly

end Plan

namespace Call

open Plan

/-- The token of a sign. -/
abbrev sign : Token := .op (.arithmetic .sub)

/-- What an evaluator does.  A node that is not of its own kind it hands on as it is. -/
def plan (s : Store) : (k : Call) → Plan k.Answer
  | .number (.number x _ _) => answer x
  | .number (.bool b _) => answer (Number.ofBool b)
  | .number (.text content span) => .stop (.ofEval (textNumber content span))
  | .number (.var name) => .stop (.ofEval do (← s.find name).value.asNumber name.span)
  | .number (.group d _) => .ask (.number d) answer
  | .number (.unary op d span) =>
      if op = sign then .ask (.number d) fun (x : Float) => answer (-x)
      else .ask (.truth (.unary op d span)) fun b => answer (Number.ofBool b)
  | .number (.binary op l r span) =>
      if op.isArithmetic then .ask (.arithmetic op l r span) answer
      else .ask (.truth (.binary op l r span)) fun b => answer (Number.ofBool b)
  | .truth (.number x _ _) => answer (x != 0.0)
  | .truth (.bool b _) => answer b
  | .truth (.text content span) => .stop (.ofEval (textTruth content span))
  | .truth (.var name) => .stop (.ofEval do return (← s.find name).value.truthy)
  | .truth (.group d _) => .ask (.truth d) answer
  | .truth (.unary op d span) =>
      if op = .dili then .ask (.truth d) fun b => answer (!b)
      else .ask (.number (.unary op d span)) fun (x : Float) => answer (x != 0.0)
  | .truth (.binary op l r span) =>
      match op with
      | .op (.connective op) => .ask (.truth l) fun a => .ask (.truth r) fun b => answer (op.apply a b)
      | .op (.comparison op) => .ask (.comparison op l r span) answer
      | op => .ask (.number (.binary op l r span)) fun (x : Float) => answer (x != 0.0)
  | .value (.number x _ _) => answer (.number x)
  | .value (.bool b _) => answer (.truth b)
  | .value (.text content _) => answer (.text content)
  | .value (.var name) => .stop (.ofEval do return (← s.find name).value)
  | .value (.group d _) => .ask (.value d) answer
  | .value (.unary op d span) =>
      if op = sign then .ask (.number (.unary op d span)) fun x => answer (.number x)
      else .ask (.truth (.unary op d span)) fun b => answer (.truth b)
  | .value (.binary op l r span) =>
      if op.isArithmetic then .ask (.number (.binary op l r span)) fun x => answer (.number x)
      else .ask (.truth (.binary op l r span)) fun b => answer (.truth b)
  | .arithmetic op l r span =>
      .ask (.number l) fun x => .ask (.number r) fun y =>
        match op with
        | .op (.arithmetic op) => .stop (.ofEval (op.apply span x y))
        | _ => .stop (.error .unreachable)
  | .comparison op l r span =>
      .ask (.value l) fun a => .ask (.value r) fun b => .stop (.ofEval (op.apply span a b))

/-- The reply to a call, if at most `depth` calls may be open at one time. -/
def answerF (s : Store) : (depth : Nat) → (k : Call) → Reply k.Answer
  | 0, _ => .error .unfinished
  | depth + 1, k => (k.plan s).run (answerF s depth)

/-- One call may make another. -/
def Asks (s : Store) (k k' : Call) : Prop := (k.plan s).Makes k'

end Call

/-! ### Ranks -/

/-- The number of nodes on the longest way down a draft, below the first. -/
def Draft.height : Draft → Nat
  | .unary _ d _ | .group d _ => d.height + 1
  | .binary _ l r _ => max l.height r.height + 1
  | .var _ | .number .. | .bool .. | .text .. => 0

theorem Draft.height_lt_left (l r : Draft) : l.height < max l.height r.height + 1 :=
  Nat.lt_succ_of_le (Nat.le_max_left ..)

theorem Draft.height_lt_right (r l : Draft) : r.height < max l.height r.height + 1 :=
  Nat.lt_succ_of_le (Nat.le_max_right ..)

/-- The token at the first node gives a truth value. -/
def Draft.isLogical : Draft → Bool
  | .unary op _ _ => op = .dili
  | .binary op _ _ _ => !op.isArithmetic
  | _ => false

/-- At the first node stands a token that is no operator. -/
def Draft.Stray : Draft → Prop
  | .unary op _ _ => op ≠ .op (.arithmetic .sub) ∧ op ≠ .dili
  | .binary op _ _ _ => op.isBinary = false
  | _ => False

namespace Call

/-- The height of what a call is about. -/
def height : Call → Nat
  | .number d | .truth d | .value d => d.height
  | .arithmetic _ l r _ | .comparison _ l r _ => max l.height r.height + 1

/-- How many calls may be open inside a call.  At one node there are up to three: for its value or for
what it does not give by itself, for what it gives, and for its operation. -/
def rank : Call → Nat
  | .number d => 3 * d.height + if d.isLogical then 2 else 1
  | .truth d => 3 * d.height + if d.isLogical then 1 else 2
  | .value d => 3 * d.height + 2
  | .arithmetic _ l r _ | .comparison _ l r _ => 3 * (max l.height r.height + 1)

/-- The call is about sound drafts. -/
def Sound : Call → Prop
  | .number d | .truth d | .value d => d.Sound
  | .arithmetic op l r _ => op.isArithmetic = true ∧ l.Sound ∧ r.Sound
  | .comparison _ l r _ => l.Sound ∧ r.Sound

theorem rank_bounds (k : Call) : 3 * k.height ≤ k.rank ∧ k.rank ≤ 3 * k.height + 2 := by
  cases k <;> simp only [rank, height] <;> try split
  all_goals omega

/-- A call about a part is of lower rank. -/
theorem rank_lt_of_height_lt {k k' : Call} (h : k'.height < k.height) : k'.rank < k.rank := by
  have hk := k.rank_bounds
  have hk' := k'.rank_bounds
  omega

/-- The second call is about sound drafts, and of lower rank than the first. -/
structure Below (k k' : Call) : Prop where
  sound : k'.Sound
  rank_lt : k'.rank < k.rank

instance : IsTrans Call Below :=
  ⟨fun _ _ _ h h' => ⟨h'.sound, h'.rank_lt.trans h.rank_lt⟩⟩

open Plan.MakesOnly

theorem below_part {k k' : Call} (hs : k'.Sound) (h : k'.height < k.height) : Below k k' :=
  ⟨hs, rank_lt_of_height_lt h⟩

/-! At one node the question goes on to what the node gives by itself. -/

section Handed

variable {d : Draft}

theorem below_number_truth (hs : d.Sound) (h : d.isLogical = true) : Below (.number d) (.truth d) :=
  ⟨hs, by simp [rank, h]⟩

theorem below_truth_number (hs : d.Sound) (h : d.isLogical = false) : Below (.truth d) (.number d) :=
  ⟨hs, by simp [rank, h]⟩

theorem below_value_truth (hs : d.Sound) (h : d.isLogical = true) : Below (.value d) (.truth d) :=
  ⟨hs, by simp [rank, h]⟩

theorem below_value_number (hs : d.Sound) (h : d.isLogical = false) : Below (.value d) (.number d) :=
  ⟨hs, by simp [rank, h]⟩

end Handed

theorem Sound.number_below (s : Store) {d : Draft} (h : d.Sound) :
    (plan s (.number d)).MakesOnly (Below (.number d)) := by
  match d, h with
  | .number .., _ | .bool .., _ | .text .., _ | .var _, _ => exact stop _
  | .group d _, h => exact .ask (below_part h (Nat.lt_succ_self _)) .answer
  | .unary op d span, h =>
      rw [plan]
      split
      case isTrue => exact .ask (below_part h.2 (Nat.lt_succ_self _)) fun _ => .answer _
      case isFalse hop =>
        -- a token before an operand that is no sign is `DILI`: the question does not come back
        obtain rfl := h.1.resolve_left hop
        exact .ask (below_number_truth h rfl) fun _ => .answer _
  | .binary op l r span, h =>
      rw [plan]
      split
      case isTrue hop =>
        exact .ask ⟨⟨hop, h.2⟩, by simp [rank, Draft.height, Draft.isLogical, hop]⟩ .answer
      case isFalse hop =>
        exact .ask (below_number_truth h (by simp [Draft.isLogical, hop])) fun _ => .answer _

theorem Sound.truth_below (s : Store) {d : Draft} (h : d.Sound) :
    (plan s (.truth d)).MakesOnly (Below (.truth d)) := by
  match d, h with
  | .number .., _ | .bool .., _ | .text .., _ | .var _, _ => exact stop _
  | .group d _, h => exact .ask (below_part h (Nat.lt_succ_self _)) .answer
  | .unary op d span, h =>
      rw [plan]
      split
      case isTrue => exact .ask (below_part h.2 (Nat.lt_succ_self _)) fun _ => .answer _
      case isFalse hop =>
        obtain rfl := h.1.resolve_right hop
        exact .ask (below_truth_number h rfl) fun _ => .answer _
  | .binary (.op (.connective op)) l r span, h =>
      exact .ask (below_part h.2.1 (l.height_lt_left r)) fun _ =>
        .ask (below_part h.2.2 (r.height_lt_right l)) fun _ => .answer _
  | .binary (.op (.comparison op)) l r span, h =>
      exact .ask ⟨h.2, by simp [rank, Draft.height, Draft.isLogical, Token.isArithmetic]⟩ .answer
  | .binary (.op (.arithmetic op)) l r span, h =>
      exact .ask (below_truth_number h rfl) fun _ => .answer _

theorem Sound.value_below (s : Store) {d : Draft} (h : d.Sound) :
    (plan s (.value d)).MakesOnly (Below (.value d)) := by
  match d, h with
  | .number .., _ | .bool .., _ | .text .., _ | .var _, _ => exact stop _
  | .group d _, h => exact .ask (below_part h (Nat.lt_succ_self _)) .answer
  | .unary op d span, h =>
      rw [plan]
      split
      case isTrue hop =>
        subst hop
        exact .ask (below_value_number h rfl) fun _ => .answer _
      case isFalse hop =>
        obtain rfl := h.1.resolve_left hop
        exact .ask (below_value_truth h rfl) fun _ => .answer _
  | .binary op l r span, h =>
      rw [plan]
      split
      case isTrue hop =>
        exact .ask (below_value_number h (by simp [Draft.isLogical, hop])) fun _ => .answer _
      case isFalse hop =>
        exact .ask (below_value_truth h (by simp [Draft.isLogical, hop])) fun _ => .answer _

/-- A call on a sound draft makes calls of lower rank, on sound drafts. -/
theorem Sound.asks {s : Store} {k k' : Call} (h : k.Sound) (hk : Asks s k k') : Below k k' := by
  suffices (k.plan s).MakesOnly (Below k) from this k' hk
  match k, h with
  | .number d, h => exact number_below s h
  | .truth d, h => exact truth_below s h
  | .value d, h => exact value_below s h
  | .arithmetic op l r span, ⟨hop, hl, hr⟩ =>
      refine .ask (below_part hl (l.height_lt_left r)) fun _ =>
        .ask (below_part hr (r.height_lt_right l)) fun _ => ?_
      split <;> exact stop _
  | .comparison op l r span, ⟨hl, hr⟩ =>
      exact .ask (below_part hl (l.height_lt_left r)) fun _ =>
        .ask (below_part hr (r.height_lt_right l)) fun _ => stop _

/-- Every call on a stack is below those that it was made from. -/
theorem Sound.stack_below {s : Store} {k : Call} {stack : List Call} (h : k.Sound)
    (hc : (k :: stack).IsChain (Asks s)) : (k :: stack).Pairwise Below := by
  suffices (k :: stack).IsChain Below from this.pairwise
  induction stack generalizing k with
  | nil => exact .singleton _
  | cons k' stack ih =>
      obtain ⟨hk, hc⟩ := List.isChain_cons_cons.mp hc
      exact .cons_cons (h.asks hk) (ih (h.asks hk).sound hc)

theorem Sound.sound_stack {s : Store} {k : Call} {stack : List Call} (h : k.Sound)
    (hc : (k :: stack).IsChain (Asks s)) : ∀ k' ∈ stack, k'.Sound :=
  fun _ hk' => (List.rel_of_pairwise_cons (h.stack_below hc) hk').sound

/-- **No call is open twice.** -/
theorem Sound.nodup_stack {s : Store} {k : Call} {stack : List Call} (h : k.Sound)
    (hc : (k :: stack).IsChain (Asks s)) : (k :: stack).Nodup := by
  refine (h.stack_below hc).imp ?_
  rintro k _ hbelow rfl
  exact Nat.lt_irrefl _ hbelow.rank_lt

/-! ### Questions that go round in circles -/

/-- Two calls that both ask the other before all else are never answered. -/
theorem unanswered_of_circle {s : Store} {k k' : Call} {next : k'.Answer → Plan k.Answer}
    {next' : k.Answer → Plan k'.Answer} (hk : k.plan s = .ask k' next)
    (hk' : k'.plan s = .ask k next') (depth : Nat) :
    answerF s depth k = .error .unfinished ∧ answerF s depth k' = .error .unfinished := by
  induction depth with
  | zero => exact ⟨rfl, rfl⟩
  | succ depth ih => exact ⟨by rw [answerF, hk, Plan.run, ih.2], by rw [answerF, hk', Plan.run, ih.1]⟩

/-- **At other tokens the calls come to no end**: no depth is enough for a number or a truth value. -/
theorem unanswered_of_stray (s : Store) {d : Draft} (h : d.Stray) (depth : Nat) :
    answerF s depth (.number d) = .error .unfinished ∧
    answerF s depth (.truth d) = .error .unfinished := by
  match d, h with
  | .unary op d span, ⟨hsign, hdili⟩ =>
      have hn : plan s (.number (.unary op d span)) = .ask (.truth (.unary op d span)) _ := if_neg hsign
      have ht : plan s (.truth (.unary op d span)) = .ask (.number (.unary op d span)) _ := if_neg hdili
      exact unanswered_of_circle hn ht depth
  | .binary op l r span, h =>
      cases op with
      | op o => cases h
      | _ => exact unanswered_of_circle rfl rfl depth

/-! ### Replies -/

/-- Where `n` calls may be open at one time, or more, an evaluation is the reply to the call. -/
def Replies (s : Store) (n : Nat) (k : Call) (r : Eval k.Answer) : Prop :=
  ∀ depth, n ≤ depth → answerF s depth k = .ofEval r

namespace Replies

variable {s : Store} {n : Nat} {k : Call} {r : Eval k.Answer}

theorem mono {m : Nat} (h : Replies s n k r) (hm : n ≤ m) : Replies s m k r :=
  fun depth hd => h depth (hm.trans hd)

/-- The reply to a call comes from its plan, with one call less that may be open. -/
theorem of_run (h : ∀ depth, n ≤ depth → (k.plan s).run (answerF s depth) = .ofEval r) :
    Replies s (n + 1) k r := by
  intro depth hd
  obtain ⟨depth, rfl⟩ : ∃ j, depth = j + 1 := ⟨depth - 1, by omega⟩
  exact h depth (by omega)

theorem stop (h : k.plan s = .stop (.ofEval r)) : Replies s (n + 1) k r :=
  of_run fun _ _ => by rw [h, Plan.run]

/-- A call that hands its question on, and does something to the answer. -/
theorem handOn {k' : Call} {f : k'.Answer → k.Answer} {r' : Eval k'.Answer} (h' : Replies s n k' r')
    (h : k.plan s = .ask k' fun a => .answer (f a)) (hr : r = f <$> r') : Replies s (n + 1) k r :=
  of_run fun depth hd => by
    rw [h, Plan.run, h' depth hd, hr]
    cases r' <;> rfl

/-- A call that asks two questions, and computes with the answers. -/
theorem both {k₁ k₂ : Call} {f : k₁.Answer → k₂.Answer → Eval k.Answer} {r₁ : Eval k₁.Answer}
    {r₂ : Eval k₂.Answer} (h₁ : Replies s n k₁ r₁) (h₂ : Replies s n k₂ r₂)
    (h : k.plan s = .ask k₁ fun a => .ask k₂ fun b => .stop (.ofEval (f a b)))
    (hr : r = do f (← r₁) (← r₂)) : Replies s (n + 1) k r :=
  of_run fun depth hd => by
    rw [h, Plan.run, h₁ depth hd, hr]
    cases r₁ with
    | error e => rfl
    | ok a =>
        change Plan.run _ (.ask k₂ _) = _
        rw [Plan.run, h₂ depth hd]
        cases r₂ <;> rfl

end Replies

end Call

/-! ### The answers of an expression -/

open Call

namespace Expr

/-- The expression is computed, and gives a number. -/
inductive Numeric : Expr → Prop
  | minus (e : Expr) (span : Span) : Numeric (.unary .minus e span)
  | arithmetic (op : Arithmetic) (l r : Expr) (span : Span) :
      Numeric (.binary (.arithmetic op) l r span)

/-- The expression is computed, and gives a truth value. -/
inductive Logical : Expr → Prop
  | dili (e : Expr) (span : Span) : Logical (.unary .dili e span)
  | comparison (op : Comparison) (l r : Expr) (span : Span) :
      Logical (.binary (.comparison op) l r span)
  | connective (op : Connective) (l r : Expr) (span : Span) :
      Logical (.binary (.connective op) l r span)

/-- Where `n` calls may be open at one time, the evaluators of the expression are the replies to the
three calls on its draft. -/
structure Answered (s : Store) (n : Nat) (e : Expr) : Prop where
  number : Replies s n (.number e.draft) (e.evalNumber s)
  truth : Replies s n (.truth e.draft) (e.evalTruth s)
  value : Replies s n (.value e.draft) (e.evalValue s)

variable {s : Store} {n : Nat} {e : Expr}

theorem Numeric.evals_eq (s : Store) (h : e.Numeric) :
    e.evalTruth s = (fun x => x != 0.0) <$> e.evalNumber s ∧
    e.evalValue s = Value.number <$> e.evalNumber s := by
  cases h with
  | minus e span => simp [evalTruth, evalNumber, evalValue]
  | arithmetic op l r span => simp [evalTruth, evalNumber, evalValue]

theorem Logical.evals_eq (s : Store) (h : e.Logical) :
    e.evalNumber s = Number.ofBool <$> e.evalTruth s ∧
    e.evalValue s = Value.truth <$> e.evalTruth s := by
  cases h with
  | dili e span => simp [evalTruth, evalNumber, evalValue]
  | comparison op l r span => simp [evalTruth, evalNumber, evalValue]
  | connective op l r span => simp [evalTruth, evalNumber, evalValue]

/-- Once a node that gives a number is answered with it, the other questions are answered too. -/
theorem Numeric.answered (h : e.Numeric) (hn : Replies s n (.number e.draft) (e.evalNumber s)) :
    e.Answered s (n + 1) := by
  obtain ⟨ht, hv⟩ := h.evals_eq s
  cases h <;> exact ⟨hn.mono n.le_succ, hn.handOn rfl ht, hn.handOn rfl hv⟩

/-- Once a node that gives a truth value is answered with it, the other questions are answered too. -/
theorem Logical.answered (h : e.Logical) (ht : Replies s n (.truth e.draft) (e.evalTruth s)) :
    e.Answered s (n + 1) := by
  obtain ⟨hn, hv⟩ := h.evals_eq s
  cases h <;> exact ⟨ht.handOn rfl hn, ht.mono n.le_succ, ht.handOn rfl hv⟩

namespace Answered

theorem mono {m : Nat} (h : e.Answered s n) (hm : n ≤ m) : e.Answered s m :=
  ⟨h.number.mono hm, h.truth.mono hm, h.value.mono hm⟩

theorem group (h : e.Answered s n) (span : Span) : (Expr.group e span).Answered s (n + 1) where
  number := h.number.handOn rfl (id_map _).symm
  truth := h.truth.handOn rfl (id_map _).symm
  value := h.value.handOn rfl (id_map _).symm

theorem unary (h : e.Answered s n) (op : UnaryOp) (span : Span) :
    (Expr.unary op e span).Answered s (n + 2) := by
  cases op with
  | minus => exact Numeric.answered (.minus e span) (h.number.handOn rfl rfl)
  | dili => exact Logical.answered (.dili e span) (h.truth.handOn rfl rfl)

theorem binary {l r : Expr} (hl : l.Answered s n) (hr : r.Answered s n) (op : BinaryOp)
    (span : Span) : (Expr.binary op l r span).Answered s (n + 3) := by
  cases op with
  | arithmetic op =>
      have hop : Replies s (n + 1) (.arithmetic (.op (.arithmetic op)) l.draft r.draft span) _ :=
        hl.number.both hr.number rfl rfl
      exact Numeric.answered (.arithmetic op l r span) (hop.handOn rfl (id_map _).symm)
  | comparison op =>
      have hop : Replies s (n + 1) (.comparison op l.draft r.draft span) _ :=
        hl.value.both hr.value rfl rfl
      exact Logical.answered (.comparison op l r span) (hop.handOn rfl (id_map _).symm)
  | connective op =>
      have htruth : Replies s (n + 1) (.truth (Expr.binary (.connective op) l r span).draft)
          ((Expr.binary (.connective op) l r span).evalTruth s) := by
        refine hl.truth.both hr.truth ?_ rfl
        rfl
      exact (Logical.answered (.connective op l r span) htruth).mono (Nat.le_succ _)

end Answered

/-- **Calls on the draft of an expression are answered by its evaluators.** -/
theorem answers (s : Store) (e : Expr) : e.Answered s (3 * e.draft.height + 3) := by
  induction e with
  | var | number | bool | text => exact ⟨.stop rfl, .stop rfl, .stop rfl⟩
  | group e span ih => exact (ih.group span).mono (by simp only [draft, Draft.height]; omega)
  | unary op e span ih => exact (ih.unary op span).mono (by simp only [draft, Draft.height]; omega)
  | binary op l r span ihl ihr =>
      have hl : l.Answered s (3 * max l.draft.height r.draft.height + 3) := ihl.mono (by omega)
      have hr : r.Answered s (3 * max l.draft.height r.draft.height + 3) := ihr.mono (by omega)
      exact (hl.binary hr op span).mono (by simp only [draft, Draft.height]; omega)

end Expr

/-- **What can be read can be evaluated.**  A draft that was read has operators in the place of operators.
On it no evaluator is asked anew what it is being asked, and no token is taken for an operation that it
is not: where enough calls may be open at one time, the answers are those of the expression that was
read, whatever the variables are. -/
theorem evaluation_of_drafts_ends {c c' : Cursor} {d : Draft} (h : Draft.expression c = .ok d c')
    (s : Store) :
    d.Sound ∧
    (∀ k ∈ [Call.number d, .truth d, .value d], ∀ stack, (k :: stack).IsChain (Asks s) →
      (k :: stack).Nodup ∧ ∀ k' ∈ stack, k'.Sound) ∧
    ∃ e : Expr, Parse.expression c = .ok e c' ∧ e.draft = d ∧
      ∀ depth, 3 * d.height + 3 ≤ depth →
        answerF s depth (.number d) = .ofEval (e.evalNumber s) ∧
        answerF s depth (.truth d) = .ofEval (e.evalTruth s) ∧
        answerF s depth (.value d) = .ofEval (e.evalValue s) := by
  rw [Draft.expression_eq] at h
  cases he : Parse.expression c with
  | error e c => rw [he] at h; cases h
  | ok e c =>
      rw [he] at h
      cases h
      have hsound : ∀ k ∈ [Call.number e.draft, .truth e.draft, .value e.draft], k.Sound := by
        simp [Call.Sound, e.sound_draft]
      refine ⟨e.sound_draft, fun k hk stack hc => ?_, e, rfl, rfl, fun depth hd => ?_⟩
      · exact ⟨(hsound k hk).nodup_stack hc, (hsound k hk).sound_stack hc⟩
      · exact ⟨(e.answers s).number depth hd, (e.answers s).truth depth hd,
          (e.answers s).value depth hd⟩

/-- The tokens of `DILI a < -b`, where a number is asked of a comparison, a truth value of what follows
`DILI`, and the value of a number with a sign. -/
theorem evaluation_of_drafts_ends_comparison :
    let c : Cursor := ⟨[⟨⟨0, 4⟩, .dili⟩, ⟨⟨5, 6⟩, .name "a"⟩, ⟨⟨7, 8⟩, .op (.comparison .lt)⟩,
      ⟨⟨9, 10⟩, sign⟩, ⟨⟨10, 11⟩, .name "b"⟩], 0⟩
    let d : Draft := .binary (.op (.comparison .lt)) (.unary .dili (.var ⟨"a", ⟨5, 6⟩⟩) ⟨0, 6⟩)
      (.unary sign (.var ⟨"b", ⟨10, 11⟩⟩) ⟨9, 11⟩) ⟨0, 11⟩
    let s : Store := ⟨[("a", .truth false), ("b", .text "2")], [("a", .tinuod), ("b", .letra)]⟩
    Draft.expression c = .ok d ⟨[], 11⟩ ∧ d.Sound ∧
    ∃ e : Expr, Parse.expression c = .ok e ⟨[], 11⟩ ∧ e.draft = d ∧
      answerF s 9 (.number d) = .ofEval (e.evalNumber s) := by
  intro c d s
  have h : Draft.expression c = .ok d ⟨[], 11⟩ := rfl
  obtain ⟨hsound, -, e, he, hd, hanswers⟩ := evaluation_of_drafts_ends h s
  exact ⟨h, hsound, e, he, hd, (hanswers 9 (by decide)).1⟩

end BisayaLang
