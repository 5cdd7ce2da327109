/-
**Counting loops.**

A loop that gives a variable a first value, compares it with a bound and steps it by one runs its body once
for every integer from the first to the last, and in this order.  What the body does is left open: it may
hold other loops, branches and declarations, and it may read the variable, but it changes it nowhere.

The counter is a binary floating point number.  It stays exact because it never leaves the integers up to
`2 ^ 53`: a round is only entered with a counter within the bound, so that the step goes at most one beyond
it.  The loop ends because every round makes the distance to the bound less by one.

Main definitions:

* `BisayaLang.CountingLoop` — a loop that counts up or down, with a body that leaves its variable alone;
* `BisayaLang.CountingLoop.Round`, `BisayaLang.CountingLoop.Rounds` — one round of the loop, and several of
  them with the machines on which the body starts;
* `BisayaLang.Machine.Counts` — the variable holds an integer.

Main results:

* `BisayaLang.CountingLoop.test_run` — the test says whether the counter is within the bound;
* `BisayaLang.CountingLoop.Round.counts` — what one round does to the counter;
* `BisayaLang.CountingLoop.Rounds.tally`, `BisayaLang.CountingLoop.Rounds.exists_end` — what all of them do,
  and that they come to an end;
* `BisayaLang.CountingLoop.Rounds.exec` — rounds up to a test that fails are what the loop does;
* `BisayaLang.CountingLoop.exec_counts` — **a counting loop runs its body the right number of times**.
-/

import BisayaLang.Proofs.Execution.Evaluators
import BisayaLang.Proofs.Execution.Fuel
import BisayaLang.Proofs.Execution.Untouched
import BisayaLang.Proofs.Number.Integers

set_option relaxedAutoImplicit false
set_option autoImplicit false

namespace BisayaLang

/-! ### Counting up and down -/

namespace Step

/-- How the counter is compared with the bound. -/
def bound : Step → Comparison
  | .increment => .le
  | .decrement => .ge

/-- The counter has not gone beyond the bound. -/
def Within : Step → Int → Int → Prop
  | .increment, n, last => n ≤ last
  | .decrement, n, last => last ≤ n

instance (step : Step) (n last : Int) : Decidable (step.Within n last) :=
  match step with
  | .increment => inferInstanceAs (Decidable (n ≤ last))
  | .decrement => inferInstanceAs (Decidable (last ≤ n))

/-- The counter after some rounds. -/
def after : Step → Int → Nat → Int
  | .increment, first, rounds => first + rounds
  | .decrement, first, rounds => first - rounds

/-- The number of integers from the first to the last. -/
def rounds : Step → Int → Int → Nat
  | .increment, first, last => (last - first + 1).toNat
  | .decrement, first, last => (first - last + 1).toNat

/-- Where the counter stands at the end: one beyond the last integer, or still at the first if there was
none. -/
def final : Step → Int → Int → Int
  | .increment, first, last => max first (last + 1)
  | .decrement, first, last => min first (last - 1)

theorem after_succ (step : Step) (first : Int) (n : Nat) :
    step.after first (n + 1) = step.after (step.after first n) 1 := by
  cases step with
  | increment =>
      simp only [after]
      push_cast
      ring
  | decrement =>
      simp only [after]
      push_cast
      ring

/-- The counter is within the bound as long as there are rounds left. -/
theorem within_after_iff (step : Step) (first last : Int) (n : Nat) :
    step.Within (step.after first n) last ↔ n < step.rounds first last := by
  cases step with
  | increment =>
      simp only [Within, after, rounds]
      omega
  | decrement =>
      simp only [Within, after, rounds]
      omega

theorem after_rounds (step : Step) (first last : Int) :
    step.after first (step.rounds first last) = step.final first last := by
  cases step with
  | increment =>
      simp only [after, rounds, final]
      omega
  | decrement =>
      simp only [after, rounds, final]
      omega

/-- The comparison with the bound, of integers. -/
theorem holds_bound (step : Step) (n last : Int) :
    step.bound.holds (some (compare (n : ℚ) last)) = decide (step.Within n last) := by
  rcases lt_trichotomy n last with h | rfl | h
  · rw [compare_lt_iff_lt.2 (by exact_mod_cast h)]
    cases step with
    | increment => exact (decide_eq_true h.le).symm
    | decrement => exact (decide_eq_false (not_le.2 h)).symm
  · rw [compare_eq_iff_eq.2 rfl]
    cases step with
    | increment => exact (decide_eq_true (le_refl n)).symm
    | decrement => exact (decide_eq_true (le_refl n)).symm
  · rw [compare_gt_iff_gt.2 (by exact_mod_cast h)]
    cases step with
    | increment => exact (decide_eq_false (not_le.2 h)).symm
    | decrement => exact (decide_eq_true h.le).symm

/-- A step within the bound goes at most one beyond it. -/
theorem abs_after_le {step : Step} {n last : Int} (hn : |n| ≤ 2 ^ 53) (hlast : |last| < 2 ^ 53)
    (h : step.Within n last) : |step.after n 1| ≤ 2 ^ 53 := by
  obtain ⟨hlow, hhigh⟩ := abs_le.1 hn
  obtain ⟨hlow', hhigh'⟩ := abs_lt.1 hlast
  cases step with
  | increment =>
      simp only [Within, after] at h ⊢
      exact abs_le.2 ⟨by omega, by omega⟩
  | decrement =>
      simp only [Within, after] at h ⊢
      exact abs_le.2 ⟨by omega, by omega⟩

/-- **A step is exact** as long as it leads to an integer up to `2 ^ 53`. -/
theorem value?_stepped {step : Step} {x : Float} {n : Int} (hx : Number.value? x = some (n : ℚ))
    (hn : |step.after n 1| ≤ 2 ^ 53) :
    Number.value? (Exec.stepped x step) = some (step.after n 1 : ℚ) := by
  cases step with
  | increment => exact Number.value?_add_one hx hn
  | decrement => exact Number.value?_sub_one hx hn

end Step

/-! ### The loops -/

/-- A loop that counts with a variable, from the value of one expression up or down to that of another.
Its body changes the variable nowhere. -/
structure CountingLoop where
  step : Step
  /-- the variable where it gets its first value, where it is compared, and where it is stepped -/
  target : Name
  tested : Name
  counter : Name
  first : Expr
  last : Expr
  body : Block
  assignSpan : Span
  testSpan : Span
  span : Span
  tested_text : tested.text = target.text
  counter_text : counter.text = target.text
  untouched : target.text ∉ body.changes

/-- The expression has the integer as its number. -/
def Expr.IsInteger (e : Expr) (s : Store) (n : Int) : Prop :=
  ∃ x, e.evalNumber s = .ok x ∧ Number.value? x = some (n : ℚ)

/-- The variable holds the integer. -/
def Machine.Counts {σ : Type} (m : Machine σ) (x : String) (type : DataType) (n : Int) : Prop :=
  ∃ y, m.store.get? x = some ⟨type, .number y⟩ ∧ Number.value? y = some (n : ℚ)

namespace CountingLoop

/-- The first assignment of the loop. -/
def assignment (l : CountingLoop) : Assignment := ⟨[l.target], l.first, l.assignSpan⟩

/-- The test of the loop. -/
def test (l : CountingLoop) : Expr :=
  .binary (.comparison l.step.bound) (.var l.tested) l.last l.testSpan

/-- The loop as a statement. -/
def stmt (l : CountingLoop) : Stmt := .loop l.assignment l.test l.counter l.step l.body l.span

variable {σ : Type} [Sink σ] (l : CountingLoop)

/-- One round of the loop: the test holds, the body comes to its end, and the counter is stepped. -/
structure Round (m m' : Machine σ) : Prop where
  test : l.test.evalTruth m.store = .ok true
  body : ∃ fuel m₁, l.body.exec fuel m = .ok () m₁ ∧
    Exec.stepCounter l.counter l.step m₁ = .ok () m'

/-- Rounds one after the other, with the machines on which the body starts. -/
inductive Rounds (m : Machine σ) : List (Machine σ) → Machine σ → Prop
  | none : Rounds m [] m
  | more {starts : List (Machine σ)} {m' m'' : Machine σ} : Rounds m starts m' → l.Round m' m'' →
      Rounds m (starts ++ [m']) m''

/-- The first assignment, and rounds after it. -/
def Runs (m : Machine σ) (starts : List (Machine σ)) (m' : Machine σ) : Prop :=
  ∃ m₀, Exec.assign l.assignment m = .ok () m₀ ∧ l.Rounds m₀ starts m'

variable {l} {m m' : Machine σ} {type : DataType} {n last : Int}

/-! ### One round -/

omit [Sink σ] in
/-- **The test says whether the counter is within the bound.** -/
theorem test_run (hn : m.Counts l.target.text type n) (hlast : l.last.IsInteger m.store last) :
    l.test.evalTruth m.store = .ok (decide (l.step.Within n last)) := by
  obtain ⟨x, hget, hx⟩ := hn
  obtain ⟨y, hnumber, hy⟩ := hlast
  have hvar : (Expr.var l.tested).evalValue m.store = .ok (.number x) := by
    rw [Expr.evalValue, Store.find, l.tested_text, hget]
    rfl
  rw [Expr.evalNumber_eq] at hnumber
  cases hvalue : l.last.evalValue m.store with
  | error e =>
      rw [hvalue] at hnumber
      cases hnumber
  | ok v =>
      rw [hvalue] at hnumber
      have hv : v.toNumber? = some y := by
        change v.asNumber _ = .ok y at hnumber
        unfold Value.asNumber at hnumber
        split at hnumber <;> cases hnumber
        assumption
      have horder : (Value.number x).order? v = some (compare (n : ℚ) last) := by
        rw [Value.order?, hv]
        exact Number.order?_of_values hx hy
      have htest := Comparison.test_of_order hvar hvalue (by simp [Value.isTruth]) l.step.bound l.testSpan
      rw [horder, Step.holds_bound] at htest
      exact htest

omit [Sink σ] in
/-- Stepping the counter. -/
theorem stepCounter_run (hn : m.Counts l.target.text type n) (hrange : |l.step.after n 1| ≤ 2 ^ 53) :
    ∃ m', Exec.stepCounter l.counter l.step m = .ok () m' ∧
      m'.Counts l.target.text type (l.step.after n 1) := by
  obtain ⟨x, hget, hx⟩ := hn
  refine ⟨m.withStore (m.store.set l.counter.text (.number (Exec.stepped x l.step))), ?_,
    Exec.stepped x l.step, ?_, Step.value?_stepped hx hrange⟩
  · rw [Exec.stepCounter, eval_bind_run, Store.find, l.counter_text, hget]
    rfl
  · rw [Machine.withStore, Store.get?_set, l.counter_text, beq_self_eq_true, hget]
    rfl

/-- The body leaves the counter alone. -/
theorem body_counts {fuel : Nat} (hn : m.Counts l.target.text type n)
    (hbody : l.body.exec fuel m = .ok () m') : m'.Counts l.target.text type n := by
  obtain ⟨x, hget, hx⟩ := hn
  exact ⟨x, ((spares_block fuel l.body l.untouched).of_ok hbody).trans hget, hx⟩

/-- **What one round does to the counter.**  It is within the bound before, and one further behind. -/
theorem Round.counts (hround : l.Round m m') (hn : m.Counts l.target.text type n)
    (hbound : l.last.IsInteger m.store last) (hrange : |n| ≤ 2 ^ 53) (hlast : |last| < 2 ^ 53) :
    l.step.Within n last ∧ m'.Counts l.target.text type (l.step.after n 1) := by
  obtain ⟨htest, fuel, m₁, hbody, hstep⟩ := hround
  rw [test_run hn hbound] at htest
  have hwithin : l.step.Within n last := of_decide_eq_true (Except.ok.inj htest)
  obtain ⟨m₂, hrun, hcounts⟩ :=
    stepCounter_run (body_counts hn hbody) (Step.abs_after_le hrange hlast hwithin)
  cases hstep.symm.trans hrun
  exact ⟨hwithin, hcounts⟩

/-- A counter within the bound, and a body that comes to its end, make a round. -/
theorem exists_round (hn : m.Counts l.target.text type n) (hbound : l.last.IsInteger m.store last)
    (hrange : |n| ≤ 2 ^ 53) (hlast : |last| < 2 ^ 53) (h : l.step.Within n last)
    (hbody : ∃ fuel m₁, l.body.exec fuel m = .ok () m₁) : ∃ m', l.Round m m' := by
  obtain ⟨fuel, m₁, hrun⟩ := hbody
  obtain ⟨m', hstep, -⟩ := stepCounter_run (body_counts hn hrun) (Step.abs_after_le hrange hlast h)
  refine ⟨m', ?_, fuel, m₁, hrun, hstep⟩
  rw [test_run hn hbound, decide_eq_true h]

/-! ### All rounds -/

variable {starts : List (Machine σ)} {first : Int}

/-- What is known where a loop with this bound comes to its test after some rounds. -/
structure Tally (l : CountingLoop) (type : DataType) (first last : Int) (starts : List (Machine σ))
    (m : Machine σ) : Prop where
  counts : m.Counts l.target.text type (l.step.after first starts.length)
  range : |l.step.after first starts.length| ≤ 2 ^ 53
  passed : ∀ (j : Nat) (m' : Machine σ), starts[j]? = some m' →
    m'.Counts l.target.text type (l.step.after first j)
  length_le : starts.length ≤ l.step.rounds first last

/-- **What rounds do to the counter**: in each of them it is one further. -/
theorem Rounds.tally (h : l.Rounds m starts m') (hn : m.Counts l.target.text type first)
    (hfirst : |first| < 2 ^ 53) (hlast : |last| < 2 ^ 53)
    (hbound : ∀ starts m', l.Rounds m starts m' → l.last.IsInteger m'.store last) :
    Tally l type first last starts m' := by
  induction h with
  | none =>
      have hzero : l.step.after first 0 = first := by cases l.step <;> simp [Step.after]
      exact ⟨by rw [List.length_nil, hzero]; exact hn, by rw [List.length_nil, hzero]; exact hfirst.le,
        by simp, Nat.zero_le _⟩
  | @more starts m₁ m₂ hrounds hround ih =>
      obtain ⟨hwithin, hcounts⟩ := hround.counts ih.counts (hbound _ _ hrounds) ih.range hlast
      have hlength : (starts ++ [m₁]).length = starts.length + 1 := by simp
      refine ⟨?_, ?_, fun j m' hj => ?_, ?_⟩
      · rw [hlength, Step.after_succ]
        exact hcounts
      · rw [hlength, Step.after_succ]
        exact Step.abs_after_le ih.range hlast hwithin
      · rcases Nat.lt_or_ge j starts.length with hlt | hge
        · rw [List.getElem?_append_left hlt] at hj
          exact ih.passed j m' hj
        · rw [List.getElem?_append_right hge] at hj
          obtain ⟨hlt, -⟩ := List.getElem?_eq_some_iff.1 hj
          obtain rfl : j = starts.length := by
            rw [List.length_singleton] at hlt
            omega
          rw [Nat.sub_self] at hj
          cases hj
          exact ih.counts
      · rw [hlength]
        exact (Step.within_after_iff ..).1 hwithin

/-- **The rounds come to an end**: each brings the counter nearer to the bound. -/
theorem Rounds.exists_end (h : l.Rounds m starts m') (hn : m.Counts l.target.text type first)
    (hfirst : |first| < 2 ^ 53) (hlast : |last| < 2 ^ 53)
    (hbound : ∀ starts m', l.Rounds m starts m' → l.last.IsInteger m'.store last)
    (hbody : ∀ starts m', l.Rounds m starts m' → l.test.evalTruth m'.store = .ok true →
      ∃ fuel m₁, l.body.exec fuel m' = .ok () m₁) :
    ∃ starts' m'', l.Rounds m starts' m'' ∧ starts'.length = l.step.rounds first last ∧
      l.test.evalTruth m''.store = .ok false := by
  induction hleft : l.step.rounds first last - starts.length generalizing starts m' with
  | zero =>
      have htally := h.tally hn hfirst hlast hbound
      have hlength : starts.length = l.step.rounds first last := by
        have := htally.length_le
        omega
      have hbeyond : ¬l.step.Within (l.step.after first starts.length) last := by
        rw [Step.within_after_iff]
        omega
      refine ⟨starts, m', h, hlength, ?_⟩
      rw [test_run htally.counts (hbound _ _ h), decide_eq_false hbeyond]
  | succ k ih =>
      have htally := h.tally hn hfirst hlast hbound
      have hwithin : l.step.Within (l.step.after first starts.length) last := by
        rw [Step.within_after_iff]
        omega
      have htest := test_run htally.counts (hbound _ _ h)
      rw [decide_eq_true hwithin] at htest
      obtain ⟨m'', hround⟩ := exists_round htally.counts (hbound _ _ h) htally.range hlast hwithin
        (hbody _ _ h htest)
      refine ih (h.more hround) ?_
      rw [List.length_append, List.length_singleton]
      omega

/-- **Rounds are what the loop does**: with enough fuel, its repetitions go on from where they end. -/
theorem Rounds.repeatF (h : l.Rounds m starts m') :
    ∃ enough, ∀ fuel, enough ≤ fuel → ∀ left,
      Exec.repeatF (Exec.eval fun s => l.test.evalTruth s)
          (do l.body.exec fuel; Exec.stepCounter l.counter l.step) (starts.length + left) m =
        Exec.repeatF (Exec.eval fun s => l.test.evalTruth s)
          (do l.body.exec fuel; Exec.stepCounter l.counter l.step) left m' := by
  induction h with
  | none => exact ⟨0, fun fuel _ left => by rw [List.length_nil, Nat.zero_add]⟩
  | @more starts m₁ m₂ _ hround ih =>
      obtain ⟨enough, ih⟩ := ih
      obtain ⟨htest, fuel₁, m₃, hbody, hstep⟩ := hround
      refine ⟨max enough fuel₁, fun fuel hfuel left => ?_⟩
      have hrun := (outlasts_block (le_trans (le_max_right _ _) hfuel) l.body).of_ok hbody
      rw [List.length_append, List.length_singleton, Nat.add_assoc, Nat.add_comm 1,
        ih fuel (le_trans (le_max_left _ _) hfuel), Exec.repeatF, eval_bind_run, htest]
      simp only [if_true]
      rw [run_bind_ok (run_bind_ok hrun |>.trans hstep)]

/-! ### The whole loop -/

omit [Sink σ] in
/-- The first assignment gives the variable its first value. -/
theorem assignment_run {v : Variable} (hdeclared : m.store.get? l.target.text = some v)
    (htype : v.type = .numero ∨ v.type = .tipik) (hfirst : l.first.IsInteger m.store first) :
    ∃ m₀, Exec.assign l.assignment m = .ok () m₀ ∧ m₀.Counts l.target.text v.type first := by
  obtain ⟨x, hnumber, hx⟩ := hfirst
  have hvalue : l.first.valueFor m.store v.type = .ok (.number x) := by
    rcases htype with htype | htype <;> rw [htype, Expr.valueFor, hnumber] <;> rfl
  have htargets : l.assignment.targets.reverse = l.target :: [] := rfl
  have hrun := assign_run htargets m
  rw [hdeclared] at hrun
  simp only [show l.assignment.value = l.first from rfl, hvalue] at hrun
  refine ⟨_, hrun, x, ?_, hx⟩
  rw [Machine.withStore, Store.get?_set, beq_self_eq_true, hdeclared]
  rfl

/-- The loop does its rounds, and ends where the test fails. -/
theorem Rounds.exec {m₀ : Machine σ} (hassign : Exec.assign l.assignment m = .ok () m₀)
    (h : l.Rounds m₀ starts m') (htest : l.test.evalTruth m'.store = .ok false) :
    ∃ enough, ∀ fuel, enough ≤ fuel → l.stmt.exec fuel m = .ok () m' := by
  obtain ⟨enough, hrounds⟩ := h.repeatF
  refine ⟨max enough (starts.length + 1), fun fuel hfuel => ?_⟩
  obtain ⟨left, hleft⟩ : ∃ left, fuel = starts.length + (left + 1) :=
    ⟨fuel - (starts.length + 1), by have := le_trans (le_max_right _ _) hfuel; omega⟩
  have hrepeat := hrounds fuel (le_trans (le_max_left _ _) hfuel) (left + 1)
  rw [← hleft, Exec.repeatF, eval_bind_run, htest] at hrepeat
  exact (run_bind_ok hassign).trans hrepeat

/-- **A counting loop runs its body the right number of times.**  Let the variable be declared as a number,
the two expressions be integers below `2 ^ 53`, the last one at every test, and let the body come to its end
without a failure whenever it is started.  Then the loop comes to its end with enough fuel.  Its body is run
once for each integer from the first to the last, with the counter at that integer; and at the end the
counter stands one beyond the last integer, or at the first if that is beyond already. -/
theorem exec_counts (l : CountingLoop) (m : Machine σ) {v : Variable} {first last : Int}
    (hdeclared : m.store.get? l.target.text = some v) (htype : v.type = .numero ∨ v.type = .tipik)
    (hfirst : l.first.IsInteger m.store first) (hfirst_lt : |first| < 2 ^ 53)
    (hlast : ∀ starts m', l.Runs m starts m' → l.last.IsInteger m'.store last)
    (hlast_lt : |last| < 2 ^ 53)
    (hbody : ∀ starts m', l.Runs m starts m' → l.test.evalTruth m'.store = .ok true →
      ∃ fuel m₁, l.body.exec fuel m' = .ok () m₁) :
    ∃ starts m', l.Runs m starts m' ∧
      (∃ enough, ∀ fuel, enough ≤ fuel → l.stmt.exec fuel m = .ok () m') ∧
      starts.length = l.step.rounds first last ∧
      (∀ (j : Nat) (mj : Machine σ), starts[j]? = some mj →
        mj.Counts l.target.text v.type (l.step.after first j)) ∧
      m'.Counts l.target.text v.type (l.step.final first last) := by
  obtain ⟨m₀, hassign, hcounts⟩ := assignment_run hdeclared htype hfirst
  have hlast₀ : ∀ starts m', l.Rounds m₀ starts m' → l.last.IsInteger m'.store last :=
    fun starts m' h => hlast starts m' ⟨m₀, hassign, h⟩
  have hbody₀ : ∀ starts m', l.Rounds m₀ starts m' → l.test.evalTruth m'.store = .ok true →
      ∃ fuel m₁, l.body.exec fuel m' = .ok () m₁ :=
    fun starts m' h => hbody starts m' ⟨m₀, hassign, h⟩
  obtain ⟨starts, m', hrounds, hlength, htest⟩ :=
    Rounds.none.exists_end hcounts hfirst_lt hlast_lt hlast₀ hbody₀
  have htally := hrounds.tally hcounts hfirst_lt hlast_lt hlast₀
  refine ⟨starts, m', ⟨m₀, hassign, hrounds⟩, hrounds.exec hassign htest, hlength, htally.passed, ?_⟩
  rw [← Step.after_rounds, ← hlength]
  exact htally.counts

end CountingLoop

/-- A loop from one to three that declares a variable in each round. -/
def declareThrice : CountingLoop where
  step := .increment
  target := ⟨"i", .point 0⟩
  tested := ⟨"i", .point 2⟩
  counter := ⟨"i", .point 4⟩
  first := .number 1.0 "1" (.point 1)
  last := .number 3.0 "3" (.point 3)
  body := .mk [.declaration .letra [⟨⟨"x", .point 6⟩, none⟩] (.point 6)] (.point 6)
  assignSpan := .point 0
  testSpan := .point 2
  span := .point 0
  tested_text := rfl
  counter_text := rfl
  untouched := by decide

/-- The loop is run with a counter that holds something else before. -/
theorem exec_counts_declareThrice :
    let m : Machine Buffer := ⟨⟨[("i", .number 7.5)], [("i", .tipik)]⟩, [], .unlimited, #[]⟩
    ∃ starts m', declareThrice.Runs m starts m' ∧
      (∃ enough, ∀ fuel, enough ≤ fuel → declareThrice.stmt.exec fuel m = .ok () m') ∧
      starts.length = 3 ∧
      (∀ (j : Nat) (mj : Machine Buffer), starts[j]? = some mj → mj.Counts "i" .tipik (1 + j)) ∧
      m'.Counts "i" .tipik 4 := by
  intro m
  have hbody : ∀ m' : Machine Buffer, ∃ m₁, declareThrice.body.exec 0 m' = .ok () m₁ := by
    intro m'
    have hone : ∃ m₁, Exec.declareOne .letra ⟨⟨"x", .point 6⟩, none⟩ m' = .ok () m₁ := by
      have hvalue : Exec.firstValue .letra ⟨⟨"x", .point 6⟩, none⟩ m' = .ok (.text "") m' := rfl
      have hget : (get : Exec Buffer (Machine Buffer)) m' = .ok m' m' := rfl
      rw [Exec.declareOne, run_bind_ok hvalue, run_bind_ok hget]
      dsimp only
      split <;> exact ⟨_, rfl⟩
    obtain ⟨m₁, hone⟩ := hone
    exact ⟨m₁, run_bind_ok (run_bind_ok hone)⟩
  have hdeclared : m.store.get? declareThrice.target.text = some ⟨.tipik, .number 7.5⟩ := rfl
  have hfirst : declareThrice.first.IsInteger m.store 1 := ⟨1.0, rfl, by decide +kernel⟩
  have hlast : ∀ m' : Machine Buffer, declareThrice.last.IsInteger m'.store 3 :=
    fun _ => ⟨3.0, rfl, by decide +kernel⟩
  exact declareThrice.exec_counts m hdeclared (.inr rfl) hfirst (by decide) (fun _ m' _ => hlast m')
    (by decide) fun _ m' _ _ => ⟨0, hbody m'⟩

end BisayaLang
