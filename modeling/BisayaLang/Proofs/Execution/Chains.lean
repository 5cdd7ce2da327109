/-
**Assignments to several variables.**

An assignment may have several targets, and gives all of them one value.  The value is made for the
rightmost target, by whose type it is evaluated, before anything is stored; from there it goes on to
the left, from each target to the next, as long as that is declared with the same type.  Where it does
not go on, the assignment fails, and what was stored up to there stays.

So there are three things that can happen.  Without a value nothing changes.  With a value, the targets
that it reaches are those from some place on, all of which have the type of the last; and if that is
not the place of the first target, the one before it is the reason for the failure.  Storing a value
changes no type, so that all of this can be read off the store as it was before, also where a name is a
target more than once.

Main definitions:

* `BisayaLang.Store.declaredType?`, `BisayaLang.Store.hasType` — the type that a name is declared with;
* `BisayaLang.Store.setAll` — a store with one value in several variables;
* `BisayaLang.Store.refusal` — why a value does not go on to a target.

Main results:

* `BisayaLang.passOn_cons_run` — how a value goes on to the next target, or does not;
* `BisayaLang.passOn_run` — how far it goes, what it leaves behind, and what stops it;
* `BisayaLang.assign_run`, `BisayaLang.assign_cut` — how an assignment starts, and how its targets fall in
  those that are reached and those that are not;
* `BisayaLang.assign_chain` — **what an assignment to several variables does**, also where it fails.
-/

import BisayaLang.Execution.Machine
import Mathlib.Order.Bounds.Defs

set_option relaxedAutoImplicit false
set_option autoImplicit false

namespace BisayaLang

/-! ### One value in several variables -/

namespace Store

/-- The type that a name is declared with. -/
def declaredType? (s : Store) (name : Name) : Option DataType := (s.get? name.text).map Variable.type

/-- The name is declared with the type. -/
def hasType (s : Store) (type : DataType) (t : Name) : Bool := s.declaredType? t == some type

/-- The store with one value in several variables. -/
def setAll (s : Store) (value : Value) (targets : List Name) : Store :=
  targets.foldl (fun s t => s.set t.text value) s

theorem declaredType?_set (s : Store) (name : String) (value : Value) (t : Name) :
    (s.set name value).declaredType? t = s.declaredType? t := by
  unfold declaredType?
  rw [get?_set]
  split
  · rename_i h
    rw [eq_of_beq h]
    cases s.get? name <;> rfl
  · rfl

theorem hasType_iff {s : Store} {type : DataType} {t : Name} :
    s.hasType type t = true ↔ s.declaredType? t = some type := beq_iff_eq

theorem hasType_set (s : Store) (name : String) (value : Value) (type : DataType) :
    (s.set name value).hasType type = s.hasType type := by
  funext t
  rw [hasType, declaredType?_set, hasType]

theorem value?_of_declaredType? {s : Store} {t : Name} {type : DataType}
    (h : s.declaredType? t = some type) : ∃ value, s.value? t.text = some value := by
  unfold declaredType? at h
  rw [get?_eq] at h
  cases hvalue : s.value? t.text with
  | some value => exact ⟨value, rfl⟩
  | none =>
      rw [hvalue] at h
      cases htype : s.type? t.text <;> rw [htype] at h <;> cases h

theorem type?_setAll (s : Store) (value : Value) (targets : List Name) (name : String) :
    (s.setAll value targets).type? name = s.type? name := by
  induction targets generalizing s with
  | nil => rfl
  | cons t targets ih => exact (ih _).trans (type?_set ..)

/-- Exactly the variables that are named have the value, and all others keep theirs. -/
theorem value?_setAll {s : Store} {targets : List Name} {type : DataType}
    (h : ∀ t ∈ targets, s.declaredType? t = some type) (value : Value) (name : String) :
    (s.setAll value targets).value? name =
      if name ∈ targets.map Name.text then some value else s.value? name := by
  induction targets generalizing s with
  | nil => rfl
  | cons t targets ih =>
      obtain ⟨old, hold⟩ := value?_of_declaredType? (h t (by simp))
      have hlater : ∀ u ∈ targets, (s.set t.text value).declaredType? u = some type := by
        intro u hu
        rw [declaredType?_set]
        exact h u (by simp [hu])
      rw [show s.setAll value (t :: targets) = (s.set t.text value).setAll value targets from rfl,
        ih hlater, value?_set, hold]
      by_cases hname : name = t.text <;> simp [hname]

/-- Why a value of the type does not go on from the target `inner` to the target `outer`. -/
def refusal (s : Store) (type : DataType) (outer inner : Name) : RuntimeError :=
  match s.declaredType? outer with
  | none => ⟨.undefinedVariable outer.text, outer.span⟩
  | some found => ⟨.typeMismatch outer.text found inner.text type, outer.span.cover inner.span⟩

theorem refusal_set (s : Store) (name : String) (value : Value) (type : DataType) (outer inner : Name) :
    (s.set name value).refusal type outer inner = s.refusal type outer inner := by
  unfold refusal
  rw [declaredType?_set]

end Store

/-! ### From target to target -/

section

variable {σ : Type}

/-- The machine with another store. -/
def Machine.withStore (m : Machine σ) (s : Store) : Machine σ := { m with store := s }

theorem eval_bind_run {α β : Type} (f : Store → Eval α) (g : α → Exec σ β) (m : Machine σ) :
    (Exec.eval f >>= g) m =
      match f m.store with
      | .ok a => g a m
      | .error e => .error (.error e) m := by
  have hrun : (Exec.eval f >>= g) m = ((Exec.ofEval (f m.store) : Exec σ α) >>= g) m := rfl
  rw [hrun]
  cases f m.store <;> rfl

/-- **How a value goes on to the next target, or does not.** -/
theorem passOn_cons_run (value : Value) (inner outer : Name) (type : DataType) (rest : List Name)
    (m : Machine σ) :
    Exec.passOn value inner type (outer :: rest) m =
      if m.store.hasType type outer then
        Exec.passOn value outer type rest (m.withStore (m.store.set outer.text value))
      else .error (.error (m.store.refusal type outer inner)) m := by
  rw [Exec.passOn, eval_bind_run]
  unfold Store.find Store.refusal Store.hasType Store.declaredType?
  cases m.store.get? outer.text with
  | none => rfl
  | some v =>
      by_cases htype : v.type = type
      · subst htype
        simp only [ne_eq, not_true_eq_false, if_false, Option.map_some, BEq.rfl, if_true]
        rfl
      · have hne : (some v.type == some type) = false := by simpa using htype
        simp only [ne_eq, htype, not_false_eq_true, if_true, Option.map_some, hne, Bool.false_eq_true,
          if_false]
        rfl

/-- **How far a value goes**, what it leaves behind, and what stops it.  The targets are in the order in
which it reaches them, and whether it goes on to one depends only on the store before the first. -/
theorem passOn_run (value : Value) (inner : Name) (type : DataType) (rest : List Name)
    (m : Machine σ) :
    let reached := rest.takeWhile (m.store.hasType type)
    let m' := m.withStore (m.store.setAll value reached)
    Exec.passOn value inner type rest m =
      match rest.dropWhile (m.store.hasType type) with
      | [] => .ok () m'
      | outer :: _ => .error (.error (m.store.refusal type outer (reached.getLastD inner))) m' := by
  induction rest generalizing inner m with
  | nil => rfl
  | cons outer rest ih =>
      rw [passOn_cons_run]
      cases h : m.store.hasType type outer with
      | true =>
          have hlater := ih outer (m.withStore (m.store.set outer.text value))
          simp only [Machine.withStore, Store.hasType_set, Store.refusal_set] at hlater
          simp only [if_true, List.takeWhile_cons_of_pos h, List.dropWhile_cons_of_pos h,
            List.getLastD_cons, Machine.withStore]
          exact hlater
      | false =>
          have hneg : ¬m.store.hasType type outer = true := by simp [h]
          simp only [Bool.false_eq_true, if_false, List.takeWhile_cons_of_neg hneg,
            List.dropWhile_cons_of_neg hneg]
          rfl

/-- **The first step of an assignment**: the rightmost target gives the value its type, and takes it. -/
theorem assign_run {a : Assignment} {last : Name} {rest : List Name}
    (h : a.targets.reverse = last :: rest) (m : Machine σ) :
    Exec.assign a m =
      match m.store.get? last.text with
      | none => .error (.error ⟨.undefinedVariable last.text, last.span⟩) m
      | some v =>
          match a.value.valueFor m.store v.type with
          | .error e => .error (.error e) m
          | .ok value =>
              Exec.passOn value last v.type rest (m.withStore (m.store.set last.text value)) := by
  unfold Exec.assign
  rw [h]
  simp only
  rw [eval_bind_run]
  unfold Store.find
  cases m.store.get? last.text with
  | none => rfl
  | some v =>
      simp only
      rw [eval_bind_run]
      cases a.value.valueFor m.store v.type <;> rfl

/-- **The targets fall in two parts**: those that the value reaches are the ones behind the last target
that is not declared with its type. -/
theorem assign_cut {a : Assignment} {last : Name} {rest : List Name}
    (h : a.targets.reverse = last :: rest) {m : Machine σ} {v : Variable}
    (hget : m.store.get? last.text = some v) {value : Value}
    (hvalue : a.value.valueFor m.store v.type = .ok value) :
    ∃ left right, a.targets = left ++ right ∧ right ≠ [] ∧
      (∀ t ∈ right, m.store.declaredType? t = some v.type) ∧
      (∀ t, left.getLast? = some t → m.store.declaredType? t ≠ some v.type) ∧
      Exec.assign a m =
        match left.getLast? with
        | none => .ok () (m.withStore (m.store.setAll value right.reverse))
        | some outer => .error (.error (m.store.refusal v.type outer (right.headD last)))
            (m.withStore (m.store.setAll value right.reverse)) := by
  have hrun := assign_run h m
  simp only [hget, hvalue] at hrun
  rw [passOn_run] at hrun
  simp only [Machine.withStore, Store.hasType_set, Store.refusal_set] at hrun
  refine ⟨(rest.dropWhile (m.store.hasType v.type)).reverse,
    (last :: rest.takeWhile (m.store.hasType v.type)).reverse, ?_, by simp, ?_, ?_, ?_⟩
  · rw [← List.reverse_append, List.cons_append, List.takeWhile_append_dropWhile, ← h,
      List.reverse_reverse]
  · intro t ht
    rcases List.mem_cons.1 (List.mem_reverse.1 ht) with rfl | ht
    · rw [Store.declaredType?, hget, Option.map_some]
    · have hall := List.all_takeWhile (p := m.store.hasType v.type) (l := rest)
      exact Store.hasType_iff.1 (List.all_eq_true.1 hall t ht)
  · intro t ht htype
    rw [List.getLast?_reverse] at ht
    have hhead := List.head?_dropWhile_not (m.store.hasType v.type) rest
    rw [ht] at hhead
    simp [Store.hasType_iff.2 htype] at hhead
  · rw [hrun, List.getLast?_reverse, List.reverse_reverse, List.headD_eq_head?_getD,
      List.head?_reverse]
    cases rest.dropWhile (m.store.hasType v.type) with
    | nil => rfl
    | cons outer later =>
        rw [List.getLast?_cons, Option.getD_some, List.getLastD_eq_getLast?]
        rfl

end

/-! ### The place from which on the value is stored -/

/-- The second part of a list starts at the least place from which on all elements pass a test, if the last
element of the first part fails it. -/
theorem isLeast_length_of_cut {α : Type} {p : α → Prop} {left right : List α} (hne : right ≠ [])
    (hright : ∀ x ∈ right, p x) (hleft : ∀ x, left.getLast? = some x → ¬p x) :
    IsLeast {k | k < (left ++ right).length ∧ ∀ x ∈ (left ++ right).drop k, p x} left.length := by
  have hpos := List.length_pos_iff.2 hne
  refine ⟨⟨by rw [List.length_append]; omega, by rwa [List.drop_left]⟩, ?_⟩
  rintro j ⟨-, hj⟩
  rcases List.eq_nil_or_concat left with rfl | ⟨front, x, rfl⟩
  · exact Nat.zero_le j
  · rw [List.concat_eq_append] at *
    refine Nat.le_of_not_lt fun hlt => hleft x List.getLast?_concat (hj x ?_)
    rw [List.length_append, List.length_singleton] at hlt
    rw [List.append_assoc, List.drop_append_of_le_length (by omega)]
    simp

/-- **What an assignment to several variables does.**  If the last target is not declared, or its type
gives the expression no value, that is the error, and nothing has changed.  Else there is a first place
from which on all targets are declared with the type of the last.  The targets from there on hold the
value that the expression had before, no type changes, and no other variable.  If that is the place of
the first target, the assignment is done; else it fails, for the reason that the target before that
place gives. -/
theorem assign_chain {σ : Type} (a : Assignment) {last : Name} (h : a.targets.getLast? = some last)
    (m : Machine σ) :
    match m.store.get? last.text with
    | none => Exec.assign a m = .error (.error ⟨.undefinedVariable last.text, last.span⟩) m
    | some v =>
        match a.value.valueFor m.store v.type with
        | .error e => Exec.assign a m = .error (.error e) m
        | .ok value => ∃ k store,
            IsLeast {k | k < a.targets.length ∧
              ∀ t ∈ a.targets.drop k, m.store.declaredType? t = some v.type} k ∧
            (∀ name, store.type? name = m.store.type? name) ∧
            (∀ name, store.value? name =
              if name ∈ (a.targets.drop k).map Name.text then some value else m.store.value? name) ∧
            (k = 0 → Exec.assign a m = .ok () (m.withStore store)) ∧
            ∀ outer inner, 0 < k → a.targets[k - 1]? = some outer → a.targets[k]? = some inner →
              Exec.assign a m =
                .error (.error (m.store.refusal v.type outer inner)) (m.withStore store) := by
  obtain ⟨rest, hrest⟩ := List.head?_eq_some_iff.1 (List.getLast?_eq_head?_reverse ▸ h)
  have hrun := assign_run hrest m
  cases hget : m.store.get? last.text with
  | none =>
      rw [hget] at hrun
      exact hrun
  | some v =>
      simp only
      cases hvalue : a.value.valueFor m.store v.type with
      | error e =>
          simp only [hget, hvalue] at hrun
          exact hrun
      | ok value =>
          obtain ⟨left, right, hcut, hne, hright, hleft, hassign⟩ := assign_cut hrest hget hvalue
          have hreached : ∀ t ∈ right.reverse, m.store.declaredType? t = some v.type :=
            fun t ht => hright t (List.mem_reverse.1 ht)
          refine ⟨left.length, m.store.setAll value right.reverse, ?_, ?_, ?_, ?_, ?_⟩
          · rw [hcut]
            exact isLeast_length_of_cut hne hright hleft
          · exact fun name => Store.type?_setAll ..
          · intro name
            rw [Store.value?_setAll hreached, hcut, List.drop_left, List.map_reverse]
            simp only [List.mem_reverse]
          · intro hzero
            rw [hassign, List.eq_nil_of_length_eq_zero hzero]
            rfl
          · intro outer inner _ houter hinner
            have hlast : left.getLast? = some outer := by
              rw [hcut, List.getElem?_append_left (by omega)] at houter
              rw [List.getLast?_eq_getElem?, houter]
            have hhead : right.headD last = inner := by
              rw [hcut, List.getElem?_append_right (Nat.le_refl _), Nat.sub_self] at hinner
              rw [List.headD_eq_head?_getD, List.head?_eq_getElem?, hinner, Option.getD_some]
            rw [hassign, hlast, hhead]

/-- An assignment of `DILI a` to `t`, `a`, `b` and `a` again. -/
def relay : Assignment :=
  let name (text : String) (place : Nat) : Name := ⟨text, .point place⟩
  ⟨[name "t" 0, name "a" 1, name "b" 2, name "a" 3], .unary .dili (.var (name "a" 5)) (.point 4),
    .point 0⟩

/-- The value goes on to `a` at the left, and not to `t`, which is for text. -/
theorem assign_chain_relay :
    let m : Machine Buffer := ⟨⟨[("t", .text "x"), ("a", .truth true), ("b", .truth true)],
      [("t", .letra), ("a", .tinuod), ("b", .tinuod)]⟩, [], .unlimited, #[]⟩
    relay.targets.getLast? = some ⟨"a", .point 3⟩ ∧
    relay.value.valueFor m.store .tinuod = .ok (.truth false) ∧
    ∃ store : Store, store.value? "t" = some (.text "x") ∧ store.value? "a" = some (.truth false) ∧
      store.value? "b" = some (.truth false) ∧
      Exec.assign relay m =
        .error (.error ⟨.typeMismatch "t" .letra "a" .tinuod, ⟨0, 1⟩⟩) (m.withStore store) := by
  intro m
  have hlast : relay.targets.getLast? = some ⟨"a", .point 3⟩ := rfl
  obtain ⟨k, store, ⟨⟨-, hk⟩, hleast⟩, -, hvalues, -, hfail⟩ := assign_chain relay hlast m
  obtain rfl : k = 1 := by
    have hle : k ≤ 1 := hleast ⟨by decide, by decide⟩
    have hne : k ≠ 0 := by
      rintro rfl
      exact absurd (hk ⟨"t", .point 0⟩ (by decide)) (by decide)
    omega
  exact ⟨hlast, rfl, store, hvalues "t", hvalues "a", hvalues "b", hfail _ _ (by decide) rfl rfl⟩

end BisayaLang
