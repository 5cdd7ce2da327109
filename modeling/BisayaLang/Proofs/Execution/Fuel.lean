/-
**Fuel that suffices.**

Fuel bounds how often each loop is repeated, and a program that needs more of it halts for that reason.
So one run says nothing about a program that went out of fuel.  But a run that did not stays as it is with
more: it comes to the same end, failures included, on the same machine.

Main definitions:

* `BisayaLang.Outlasts` — a computation does the same as another one, unless that goes out of fuel.

Main results:

* `BisayaLang.outlasts_stmt`, `BisayaLang.outlasts_block` — **more fuel changes nothing once it suffices**.
-/

import BisayaLang.Execution.Machine

set_option relaxedAutoImplicit false
set_option autoImplicit false

namespace BisayaLang

section

variable {σ α β : Type}

/-- The first computation does what the second does, unless that goes out of fuel. -/
def Outlasts (x y : Exec σ α) : Prop := ∀ m, x m = y m ∨ ∃ m', y m = .error .outOfFuel m'

theorem Outlasts.refl (x : Exec σ α) : Outlasts x x := fun _ => .inl rfl

/-- What comes to an end comes to it with more fuel. -/
theorem Outlasts.of_ok {x y : Exec σ α} (h : Outlasts x y) {m m' : Machine σ} {a : α}
    (hy : y m = .ok a m') : x m = .ok a m' := by
  rcases h m with hxy | ⟨m'', hout⟩
  · exact hxy.trans hy
  · cases hy.symm.trans hout

theorem outlasts_bind {x y : Exec σ α} {f g : α → Exec σ β} (h : Outlasts x y)
    (hf : ∀ a, Outlasts (f a) (g a)) : Outlasts (x >>= f) (y >>= g) := by
  intro m
  show EStateM.bind x f m = EStateM.bind y g m ∨ ∃ m', EStateM.bind y g m = .error .outOfFuel m'
  unfold EStateM.bind
  rcases h m with hxy | ⟨m', hout⟩
  · rw [hxy]
    cases hy : y m with
    | ok a m' => exact hf a m'
    | error e m' => exact .inl rfl
  · rw [hout]
    exact .inr ⟨m', rfl⟩

/-- The repetitions of a loop: the test and the body of one more of them, and then the others. -/
theorem outlasts_repeatF {body body' : Exec σ Unit} (test : Exec σ Bool) (hb : Outlasts body' body)
    {fuel fuel' : Nat} (hle : fuel ≤ fuel') :
    Outlasts (Exec.repeatF test body' fuel') (Exec.repeatF test body fuel) := by
  induction fuel generalizing fuel' with
  | zero => exact fun m => .inr ⟨m, rfl⟩
  | succ fuel ih =>
      obtain ⟨fuel', rfl⟩ : ∃ n, fuel' = n + 1 := ⟨fuel' - 1, by omega⟩
      refine outlasts_bind (.refl test) fun holds => ?_
      cases holds with
      | true => exact outlasts_bind hb fun _ => ih (Nat.le_of_succ_le_succ hle)
      | false => exact .refl _

theorem outlasts_test (f : Store → Eval Bool) {x x' y y' : Exec σ Unit} (h : Outlasts x y)
    (h' : Outlasts x' y') :
    Outlasts (do if ← Exec.eval f then x else x') (do if ← Exec.eval f then y else y') := by
  refine outlasts_bind (.refl _) fun holds => ?_
  cases holds with
  | true => exact h
  | false => exact h'

variable [Sink σ] {fuel fuel' : Nat}

mutual

/-- **More fuel changes nothing once it suffices**, for a statement. -/
theorem outlasts_stmt (hle : fuel ≤ fuel') :
    ∀ s : Stmt, Outlasts (s.exec fuel' : Exec σ Unit) (s.exec fuel)
  | .declaration .. | .assignment _ | .print .. | .input .. => .refl _
  | .conditional _ body rest _ =>
      outlasts_test _ (outlasts_block hle body) (outlasts_otherwise hle rest)
  | .loop _ _ _ _ body _ =>
      outlasts_bind (.refl _) fun _ =>
        outlasts_repeatF _ (outlasts_bind (outlasts_block hle body) fun _ => .refl _) hle

/-- **More fuel changes nothing once it suffices**, for a block. -/
theorem outlasts_block (hle : fuel ≤ fuel') :
    ∀ b : Block, Outlasts (b.exec fuel' : Exec σ Unit) (b.exec fuel)
  | .mk body _ => outlasts_execAll hle body

theorem outlasts_otherwise (hle : fuel ≤ fuel') :
    ∀ o : Otherwise, Outlasts (o.exec fuel' : Exec σ Unit) (o.exec fuel)
  | .nothing => .refl _
  | .branch _ body rest => outlasts_test _ (outlasts_block hle body) (outlasts_otherwise hle rest)
  | .always body => outlasts_block hle body

theorem outlasts_execAll (hle : fuel ≤ fuel') :
    ∀ ss : List Stmt, Outlasts (execAll fuel' ss : Exec σ Unit) (execAll fuel ss)
  | [] => .refl _
  | s :: ss => outlasts_bind (outlasts_stmt hle s) fun _ => outlasts_execAll hle ss

end

end

end BisayaLang
