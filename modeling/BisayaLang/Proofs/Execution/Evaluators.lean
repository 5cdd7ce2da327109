/-
**One value, whoever asks for it.**

An expression is evaluated by whoever asks: for a number, for a truth value, for a text, or for the value
that it has by itself.  Each evaluator has its own cases for literals, variables and operators, and each
asks others about the parts.  Still there is one value behind all of them: the number and the truth value
of an expression are made from it.  The one exception is quoted text, which as a test has to be the word
for a truth value.

Brackets only steer how an expression is read.  They make no difference to any evaluator, at whatever
depth they stand: the same value, the same text on display, the same error at the same place.

Main definitions:

* `BisayaLang.Expr.core` — an expression without the brackets around it;
* `BisayaLang.Expr.ungrouped` — an expression without any brackets.

Main results:

* `BisayaLang.Expr.evalNumber_eq`, `BisayaLang.Expr.evalTruth_eq` — the number and the truth value of an
  expression come from its value;
* `BisayaLang.Expr.evalText_eq_ok_iff` — what has a text;
* `BisayaLang.Expr.evaluators_agree` — **the evaluators agree**;
* `BisayaLang.Expr.eval_ungrouped` — **brackets make no difference to evaluation**.
-/

import BisayaLang.Execution.Evaluate

set_option relaxedAutoImplicit false
set_option autoImplicit false

namespace BisayaLang

/-! ### Values as numbers and as truth values -/

namespace Value

@[simp] theorem asNumber_number (x : Float) (span : Span) : (number x).asNumber span = pure x := rfl

@[simp] theorem asNumber_truth (b : Bool) (span : Span) :
    (truth b).asNumber span = pure (Number.ofBool b) := rfl

@[simp] theorem truthy_number (x : Float) : (number x).truthy = (x != 0.0) := rfl

@[simp] theorem truthy_truth (b : Bool) : (truth b).truthy = b := rfl

end Value

namespace Expr

/-! ### One value behind all evaluators -/

/-- The expression without the brackets around it. -/
def core : Expr → Expr
  | .group e _ => e.core
  | e => e

/-- **The number of an expression is made from its value**, at the place of what the brackets hold. -/
theorem evalNumber_eq (s : Store) (e : Expr) :
    e.evalNumber s = e.evalValue s >>= fun v => v.asNumber e.core.span := by
  induction e with
  | var name => simp [evalNumber, evalValue, core, Expr.span]
  | number | bool | text => rfl
  | group e span ih => exact ih
  | unary op e span => cases op <;> simp [evalNumber, evalValue]
  | binary op l r span => cases op <;> simp [evalNumber, evalValue]

/-- **The truth value of an expression is made from its value**, quoted text apart. -/
theorem evalTruth_eq (s : Store) (e : Expr) :
    e.evalTruth s =
      match e.core with
      | .text content span => textTruth content span
      | _ => Value.truthy <$> e.evalValue s := by
  induction e with
  | var name => simp [evalTruth, evalValue, core]
  | number | bool | text => rfl
  | group e span ih => exact ih
  | unary op e span => cases op <;> simp [evalTruth, evalValue, core]
  | binary op l r span => cases op <;> simp [evalTruth, evalValue, core]

/-- **What has a text**: a quoted text, or a variable that holds one, in brackets or not. -/
theorem evalText_eq_ok_iff (s : Store) (e : Expr) (t : String) :
    e.evalText s = .ok t ↔
      (∃ span, e.core = .text t span) ∨
        ∃ name type, e.core = .var name ∧ s.get? name.text = some ⟨type, .text t⟩ := by
  induction e with
  | var name =>
      constructor
      · intro h
        simp only [evalText, Store.find] at h
        cases hget : s.get? name.text with
        | none =>
            rw [hget] at h
            cases h
        | some v =>
            obtain ⟨type, value⟩ := v
            rw [hget] at h
            cases value <;> cases h
            exact .inr ⟨name, type, rfl, hget⟩
      · rintro (⟨span, ⟨⟩⟩ | ⟨_, type, ⟨⟩, hget⟩)
        simp only [evalText, Store.find, hget]
        rfl
  | text content span =>
      constructor
      · rintro ⟨⟩
        exact .inl ⟨span, rfl⟩
      · rintro (⟨_, ⟨⟩⟩ | ⟨_, _, ⟨⟩, _⟩)
        rfl
  | group e span ih => exact ih
  | number | bool | unary | binary =>
      constructor
      · rintro ⟨⟩
      · rintro (⟨_, ⟨⟩⟩ | ⟨_, _, ⟨⟩, _⟩)

theorem evalValue_core (s : Store) (e : Expr) : e.core.evalValue s = e.evalValue s := by
  induction e with
  | group e span ih => exact ih
  | var | number | bool | text | unary | binary => rfl

/-- A text that an expression has is its value. -/
theorem evalValue_of_evalText {s : Store} {e : Expr} {t : String} (h : e.evalText s = .ok t) :
    e.evalValue s = .ok (.text t) := by
  rw [← evalValue_core]
  rcases (evalText_eq_ok_iff s e t).1 h with ⟨span, hcore⟩ | ⟨name, type, hcore, hget⟩
  · rw [hcore]
    rfl
  · rw [hcore]
    simp only [evalValue, Store.find, hget]
    rfl

/-- **The evaluators agree.**  The number of an expression is its value as a number, at the place of what
the brackets hold; its truth value is that of its value, unless it is a quoted text; and it has a text
exactly if it is a quoted text or a variable that holds a text, which then is its value. -/
theorem evaluators_agree (s : Store) (e : Expr) :
    (e.evalNumber s = do (← e.evalValue s).asNumber e.core.span) ∧
    ((∀ content span, e.core ≠ .text content span) →
      e.evalTruth s = do return (← e.evalValue s).truthy) ∧
    ((∃ t, e.evalText s = .ok t) ↔
      (∃ content span, e.core = .text content span) ∨
        ∃ name type t, e.core = .var name ∧ s.get? name.text = some ⟨type, .text t⟩) ∧
    ∀ t, e.evalText s = .ok t → e.evalValue s = .ok (.text t) := by
  refine ⟨evalNumber_eq s e, fun hcore => ?_, ?_, fun t => evalValue_of_evalText⟩
  · rw [evalTruth_eq]
    split
    · rename_i content span htext
      exact absurd htext (hcore content span)
    · rfl
  · simp only [evalText_eq_ok_iff]
    constructor
    · rintro ⟨t, ⟨span, h⟩ | ⟨name, type, h⟩⟩
      · exact .inl ⟨t, span, h⟩
      · exact .inr ⟨name, type, t, h⟩
    · rintro (⟨t, span, h⟩ | ⟨name, type, t, h⟩)
      · exact ⟨t, .inl ⟨span, h⟩⟩
      · exact ⟨t, .inr ⟨name, type, h⟩⟩

/-! ### Brackets -/

/-- The expression without any brackets. -/
def ungrouped : Expr → Expr
  | .group e _ => e.ungrouped
  | .unary op e span => .unary op e.ungrouped span
  | .binary op l r span => .binary op l.ungrouped r.ungrouped span
  | e => e

/-- No evaluator tells the two expressions apart. -/
structure Alike (s : Store) (e e' : Expr) : Prop where
  number : e.evalNumber s = e'.evalNumber s
  truth : e.evalTruth s = e'.evalTruth s
  value : e.evalValue s = e'.evalValue s
  text : e.evalText s = e'.evalText s
  display : e.display s = e'.display s

namespace Alike

variable {s : Store} {e e' l l' r r' : Expr}

theorem refl (e : Expr) : Alike s e e := ⟨rfl, rfl, rfl, rfl, rfl⟩

theorem group (h : Alike s e e') (span : Span) : Alike s e (.group e' span) :=
  ⟨h.number, h.truth, h.value, h.text, h.display⟩

theorem unary (h : Alike s e e') (op : UnaryOp) (span : Span) :
    Alike s (.unary op e span) (.unary op e' span) := by
  cases op <;> constructor <;>
    simp only [evalNumber, evalTruth, evalValue, evalText, Expr.display, Expr.span, h.number, h.truth]

theorem binary (hl : Alike s l l') (hr : Alike s r r') (op : BinaryOp) (span : Span) :
    Alike s (.binary op l r span) (.binary op l' r' span) := by
  cases op <;> constructor <;>
    simp only [evalNumber, evalTruth, evalValue, evalText, Expr.display, Expr.span, hl.number,
      hl.truth, hl.value, hr.number, hr.truth, hr.value]

end Alike

/-- **Brackets make no difference to evaluation**, at whatever depth they stand. -/
theorem eval_ungrouped (s : Store) (e : Expr) : Alike s e.ungrouped e := by
  induction e with
  | var | number | bool | text => exact .refl _
  | group e span ih => exact ih.group span
  | unary op e span ih => exact ih.unary op span
  | binary op l r span ihl ihr => exact ihl.binary ihr op span

end Expr

end BisayaLang
