/-
**Comparisons that fit together.**

There are six ways to compare two expressions, and each of them says its own thing about one order of
their values.  Which order that is depends on the values: numbers have theirs, other values are taken
as numbers if both stand for one, and else they are ordered as the texts that they show.  Truth values
have no order at all, so that they are equal or not, and any other comparison of two of them fails.

Numbers are not ordered completely, since there is one that is not a number, and a text may spell it.
This is the only gap: two values without an order are compared as numbers, and one of them is none.  In
the gap nothing holds but `<>`.

Main definitions:

* `BisayaLang.Value.Unordered` — two values that have no order;
* `BisayaLang.Comparison.mirrored`, `BisayaLang.Comparison.orEqual` — a comparison read from right to left,
  and one that holds of equal values too;
* `BisayaLang.Comparison.test` — what the comparison of two expressions comes to.

Main results:

* `BisayaLang.Number.order?_eq_compare` — the order of numbers is the one of the floating point standard;
* `BisayaLang.Value.order?_swap`, `BisayaLang.Value.order?_eq_none_iff` — the order of values from the other
  side, and where there is none;
* `BisayaLang.Comparison.test_cases` — all comparisons of two expressions are made from the same values;
* `BisayaLang.comparisons_cohere` — **comparisons fit together**.
-/

import BisayaLang.Execution.Evaluate

set_option relaxedAutoImplicit false
set_option autoImplicit false

namespace BisayaLang

/-! ### The order of numbers -/

namespace Number

open Float.Model (UnpackedFloat)

theorem magnitude_swap (m n : Nat) (e f : Int) :
    ((compare e f).then (compare m n)).swap = (compare f e).then (compare n m) := by
  rw [Ordering.swap_then, Int.compare_swap, Nat.compare_swap]

theorem compare_swap (a b : UnpackedFloat) : (a.compare b).map Ordering.swap = b.compare a := by
  rcases a with (_ | _) | _ | _ | ⟨_ | _, m, e, hm⟩ <;>
    rcases b with (_ | _) | _ | _ | ⟨_ | _, n, f, hn⟩ <;> try rfl
  -- what is left are two finite numbers of one sign, which go by their exponents and mantissas
  · exact congrArg (fun o => some o.swap) (magnitude_swap m n e f)
  · exact congrArg some (magnitude_swap m n e f)

theorem isNone_compare (a b : UnpackedFloat) : (a.compare b).isNone = (a.isNaN || b.isNaN) := by
  rcases a with (_ | _) | _ | _ | ⟨_ | _, m, e, hm⟩ <;>
    rcases b with (_ | _) | _ | _ | ⟨_ | _, n, f, hn⟩ <;> rfl

theorem decide_le (x y : Float) :
    decide (x ≤ y) = (x.toModel.unpack.compare y.toModel.unpack).any (·.isLE) := by
  rw [Bool.eq_iff_iff, decide_eq_true_iff]
  exact decide_eq_true_iff

/-- **The order of numbers is the one of the floating point standard**, in which what is not a number has
no place. -/
theorem order?_eq_compare (x y : Float) :
    order? x y = x.toModel.unpack.compare y.toModel.unpack := by
  unfold order?
  rw [decide_le, decide_le, ← compare_swap x.toModel.unpack]
  rcases x.toModel.unpack.compare y.toModel.unpack with _ | _ | _ | _ <;> rfl

theorem order?_swap (x y : Float) : (order? x y).map Ordering.swap = order? y x := by
  rw [order?_eq_compare, order?_eq_compare, compare_swap]

theorem order?_eq_none_iff (x y : Float) : order? x y = none ↔ x.isNaN = true ∨ y.isNaN = true := by
  rw [order?_eq_compare, ← Option.isNone_iff_eq_none, isNone_compare, Bool.or_eq_true]
  rfl

end Number

/-! ### The order of values -/

namespace Value

/-- The values are compared as numbers, and one of them is not a number. -/
def Unordered (v w : Value) : Prop :=
  ∃ x y, v.toNumber? = some x ∧ w.toNumber? = some y ∧ (x.isNaN = true ∨ y.isNaN = true)

theorem textOrder_swap (a b : String) : (textOrder a b).swap = textOrder b a := by
  unfold textOrder
  by_cases hlt : a < b
  · have hgt : ¬ b < a := String.lt_asymm hlt
    have hne : b ≠ a := fun h => hgt (h ▸ hlt)
    rw [if_pos hlt, if_neg hgt, if_neg hne]
    rfl
  · by_cases heq : a = b
    · subst heq
      rw [if_neg hlt, if_pos rfl]
      rfl
    · have hgt : b < a := Std.lt_of_le_of_ne hlt (Ne.symm heq)
      rw [if_neg hlt, if_neg heq, if_pos hgt]
      rfl

/-- **The order of values, seen from the other side**, is the reverse one. -/
theorem order?_swap (v w : Value) : (v.order? w).map Ordering.swap = w.order? v := by
  unfold order?
  cases v.toNumber? with
  | none => cases w.toNumber? <;> exact congrArg some (textOrder_swap ..)
  | some x =>
      cases w.toNumber? with
      | none => exact congrArg some (textOrder_swap ..)
      | some y => exact Number.order?_swap x y

/-- **Values have no order exactly if** they are compared as numbers and one of them is not a number. -/
theorem order?_eq_none_iff (v w : Value) : v.order? w = none ↔ v.Unordered w := by
  unfold order? Unordered
  cases v.toNumber? with
  | none => simp
  | some x =>
      cases w.toNumber? with
      | none => simp
      | some y => simp [Number.order?_eq_none_iff]

/-- The value is a truth value. -/
def isTruth : Value → Bool
  | .truth _ => true
  | _ => false

end Value

/-! ### What comparisons say of an order -/

namespace Comparison

/-- The comparison, read from right to left. -/
def mirrored : Comparison → Comparison
  | .lt => .gt
  | .le => .ge
  | .gt => .lt
  | .ge => .le
  | op => op

/-- The comparison that also holds of equal values. -/
def orEqual : Comparison → Comparison
  | .lt => .le
  | .gt => .ge
  | op => op

theorem holds_ne (o : Option Ordering) : ne.holds o = !eq.holds o := by
  rcases o with _ | _ | _ | _ <;> rfl

theorem holds_orEqual {op : Comparison} (h : op = lt ∨ op = gt) (o : Option Ordering) :
    op.orEqual.holds o = (op.holds o || eq.holds o) := by
  rcases h with rfl | rfl <;> rcases o with _ | _ | _ | _ <;> rfl

theorem holds_mirrored (op : Comparison) (o : Option Ordering) :
    op.mirrored.holds (o.map Ordering.swap) = op.holds o := by
  cases op <;> rcases o with _ | _ | _ | _ <;> rfl

/-- Of less, equal and greater, one holds where there is an order, and else none. -/
theorem count_holds (o : Option Ordering) :
    [lt.holds o, eq.holds o, gt.holds o].count true = if o = none then 0 else 1 := by
  rcases o with _ | _ | _ | _ <;> rfl

/-- Two values are both truth values, or every comparison is read off their order. -/
theorem apply_cases (v w : Value) :
    (∃ a b, v = .truth a ∧ w = .truth b) ∨
      ∀ op span, apply op span v w = .ok (op.holds (v.order? w)) := by
  cases v with
  | truth a =>
      cases w with
      | truth b => exact .inl ⟨a, b, rfl, rfl⟩
      | number y => exact .inr fun op span => rfl
      | text t => exact .inr fun op span => rfl
  | number x => exact .inr fun op span => rfl
  | text s => exact .inr fun op span => rfl

theorem apply_ne (span : Span) (v w : Value) :
    ne.apply span v w = (!·) <$> eq.apply span v w := by
  rcases apply_cases v w with ⟨a, b, rfl, rfl⟩ | happly
  · rfl
  · rw [happly, happly, holds_ne]
    rfl

/-- Truth values can be compared neither for less nor for less or equal, and of all other values the one
comparison holds if the other does or they are equal. -/
theorem apply_orEqual {op : Comparison} (h : op = lt ∨ op = gt) (span : Span) (v w : Value) :
    (∃ e e', op.apply span v w = .error e ∧ op.orEqual.apply span v w = .error e') ∨
      ∃ a b, op.apply span v w = .ok a ∧ eq.apply span v w = .ok b ∧
        op.orEqual.apply span v w = .ok (a || b) := by
  rcases apply_cases v w with ⟨a, b, rfl, rfl⟩ | happly
  · rcases h with rfl | rfl <;> exact .inl ⟨_, _, rfl, rfl⟩
  · exact .inr ⟨_, _, happly .., happly .., by rw [happly, holds_orEqual h]⟩

/-! ### Comparisons of expressions -/

/-- What the comparison of two expressions comes to. -/
def test (op : Comparison) (s : Store) (l r : Expr) (span : Span) : Eval Bool :=
  (Expr.binary (.comparison op) l r span).evalTruth s

theorem test_of_values {s : Store} {l r : Expr} {v w : Value} (hl : l.evalValue s = .ok v)
    (hr : r.evalValue s = .ok w) (op : Comparison) (span : Span) :
    op.test s l r span = op.apply span v w := by
  unfold test
  rw [Expr.evalTruth, hl, hr]
  rfl

/-- **All comparisons of two expressions are made from the same values**, and an operand without a value
is the error of them all. -/
theorem test_cases (s : Store) (l r : Expr) (span : Span) :
    (∃ v w, ∀ op, test op s l r span = op.apply span v w) ∨
      ∃ e, ∀ op, test op s l r span = .error e := by
  cases hl : l.evalValue s with
  | error e =>
      refine .inr ⟨e, fun op => ?_⟩
      unfold test
      rw [Expr.evalTruth, hl]
      rfl
  | ok v =>
      cases hr : r.evalValue s with
      | error e =>
          refine .inr ⟨e, fun op => ?_⟩
          unfold test
          rw [Expr.evalTruth, hl, hr]
          rfl
      | ok w => exact .inl ⟨v, w, fun op => test_of_values hl hr op span⟩

theorem test_ne (s : Store) (l r : Expr) (span : Span) :
    ne.test s l r span = (!·) <$> eq.test s l r span := by
  rcases test_cases s l r span with ⟨v, w, h⟩ | ⟨e, h⟩
  · rw [h, h, apply_ne]
  · rw [h, h]
    rfl

theorem test_orEqual {op : Comparison} (hop : op = lt ∨ op = gt) (s : Store) (l r : Expr)
    (span : Span) :
    (∃ e e', op.test s l r span = .error e ∧ op.orEqual.test s l r span = .error e') ∨
      ∃ a b, op.test s l r span = .ok a ∧ eq.test s l r span = .ok b ∧
        op.orEqual.test s l r span = .ok (a || b) := by
  rcases test_cases s l r span with ⟨v, w, h⟩ | ⟨e, h⟩
  · simp only [h]
    exact apply_orEqual hop span v w
  · exact .inl ⟨e, e, h _, h _⟩

/-- Values that are not both truth values are compared by their order. -/
theorem test_of_order {s : Store} {l r : Expr} {v w : Value} (hl : l.evalValue s = .ok v)
    (hr : r.evalValue s = .ok w) (h : ¬(v.isTruth = true ∧ w.isTruth = true)) (op : Comparison)
    (span : Span) : op.test s l r span = .ok (op.holds (v.order? w)) := by
  rw [test_of_values hl hr]
  rcases apply_cases v w with ⟨a, b, rfl, rfl⟩ | happly
  · exact absurd ⟨rfl, rfl⟩ h
  · exact happly op span

end Comparison

open Comparison in
/-- **Comparisons fit together.**  Unequal is what is not equal, with the same errors.  Less or equal fails
exactly where less does, and else holds if one of less and equal does; so for greater.  Where both
sides have a value, and not both a truth value, a comparison says the same when it is read from right
to left; and of less, equal and greater at most one holds, and exactly one unless the values are
compared as numbers and one of them is not a number. -/
theorem comparisons_cohere (s : Store) (l r : Expr) (span : Span) :
    (ne.test s l r span = (!·) <$> eq.test s l r span) ∧
    (∀ op, op = lt ∨ op = gt →
      ((∃ e, op.orEqual.test s l r span = .error e) ↔ ∃ e, op.test s l r span = .error e) ∧
      ∀ a, op.test s l r span = .ok a →
        ∃ b, eq.test s l r span = .ok b ∧ op.orEqual.test s l r span = .ok (a || b)) ∧
    ∀ v w, l.evalValue s = .ok v → r.evalValue s = .ok w → ¬(v.isTruth = true ∧ w.isTruth = true) →
      (∀ op, test op s l r span = op.mirrored.test s r l span) ∧
      ∃ less equal greater, lt.test s l r span = .ok less ∧ eq.test s l r span = .ok equal ∧
        gt.test s l r span = .ok greater ∧ [less, equal, greater].count true ≤ 1 ∧
        ([less, equal, greater].count true = 1 ↔ ¬v.Unordered w) := by
  refine ⟨test_ne s l r span, fun op hop => ?_, fun v w hl hr htruth => ⟨fun op => ?_, ?_⟩⟩
  · rcases test_orEqual hop s l r span with ⟨e, e', h, h'⟩ | ⟨a, b, h, heq, h'⟩
    · rw [h, h']
      exact ⟨⟨fun _ => ⟨e, rfl⟩, fun _ => ⟨e', rfl⟩⟩, fun a ha => nomatch ha⟩
    · rw [h, heq, h']
      refine ⟨⟨fun ⟨_, he⟩ => (nomatch he), fun ⟨_, he⟩ => (nomatch he)⟩, fun a' ha => ?_⟩
      cases ha
      exact ⟨b, rfl, rfl⟩
  · rw [test_of_order hl hr htruth, test_of_order hr hl fun h => htruth h.symm, ← Value.order?_swap v w,
      holds_mirrored]
  · refine ⟨_, _, _, test_of_order hl hr htruth .., test_of_order hl hr htruth ..,
      test_of_order hl hr htruth .., ?_, ?_⟩
    · rw [count_holds]
      split <;> decide
    · rw [count_holds, ← Value.order?_eq_none_iff]
      split <;> simp_all

open Comparison in
/-- A text that spells what is not a number, against a number. -/
theorem comparisons_cohere_nan :
    (Value.text "nan").Unordered (.number 1.0) ∧
    (Expr.text "nan" ⟨0, 5⟩).evalValue .empty = .ok (.text "nan") ∧
    (Expr.number 1.0 "1" ⟨8, 9⟩).evalValue .empty = .ok (.number 1.0) ∧
    ∃ less equal greater,
      lt.test .empty (.text "nan" ⟨0, 5⟩) (.number 1.0 "1" ⟨8, 9⟩) ⟨0, 9⟩ = .ok less ∧
      eq.test .empty (.text "nan" ⟨0, 5⟩) (.number 1.0 "1" ⟨8, 9⟩) ⟨0, 9⟩ = .ok equal ∧
      gt.test .empty (.text "nan" ⟨0, 5⟩) (.number 1.0 "1" ⟨8, 9⟩) ⟨0, 9⟩ = .ok greater ∧
      [less, equal, greater].count true ≠ 1 := by
  have hnan : (Value.text "nan").Unordered (.number 1.0) :=
    ⟨Number.nan, 1.0, by decide +kernel, rfl, .inl (by decide +kernel)⟩
  obtain ⟨-, less, equal, greater, hlt, heq, hgt, -, hone⟩ :=
    (comparisons_cohere .empty (.text "nan" ⟨0, 5⟩) (.number 1.0 "1" ⟨8, 9⟩) ⟨0, 9⟩).2.2
      (.text "nan") (.number 1.0) rfl rfl (by decide)
  exact ⟨hnan, rfl, rfl, less, equal, greater, hlt, heq, hgt, fun h => hone.1 h hnan⟩

end BisayaLang
