/-
**What a program does not name.**

A program can neither see nor change a variable that it does not name.  Two machines may hold quite
different variables: if they have the same under the names of the program, and the same input, and sinks
that answer alike, then the program does the same on both of them.  It comes to the same end, it gives the
same warnings, it makes the same calls of the sinks, and behind it the machines still have the same under
its names.  Under all other names each of them has what it had before.

Exchanging every name for itself changes nothing, so that this is a case of running with other names.

Main definitions:

* `BisayaLang.Store.SameAt` — two stores have the same under a name;
* `BisayaLang.Sink.Alike` — two sinks give the same answers from now on;
* `BisayaLang.Sink.Performs` — some calls lead from one state of a sink to another;
* `BisayaLang.SameEffects` — what has been done to two machines is the same.

Main results:

* `BisayaLang.translation_sameEffects` — one thing more is done to both machines;
* `BisayaLang.Program.exec_local` — **a program does the same on machines that differ only in what it does
  not name**, and leaves that unchanged.
-/

import BisayaLang.Proofs.Execution.Sinks
import BisayaLang.Proofs.Execution.Translation

set_option relaxedAutoImplicit false
set_option autoImplicit false

namespace BisayaLang

/-! ### The same under a name -/

/-- The stores have the same type and the same value under the name, or neither has one. -/
structure Store.SameAt (s t : Store) (x : String) : Prop where
  type : s.type? x = t.type? x
  value : s.value? x = t.value? x

namespace Store.SameAt

variable {s t : Store} {x y : String}

theorem refl (s : Store) (x : String) : s.SameAt s x := ⟨rfl, rfl⟩

/-- A declaration carried out in both stores. -/
theorem declare (h : s.SameAt t x) (y : String) (type : DataType) (value : Value) :
    (s.declare y type value).SameAt (t.declare y type value) x where
  type := by rw [type?_declare, type?_declare, h.type]
  value := by rw [value?_declare, value?_declare, h.value]

/-- A declaration of another name. -/
theorem declare_of_ne (h : s.SameAt t x) (hxy : x ≠ y) (type : DataType) (value : Value) :
    (s.declare y type value).SameAt t x where
  type := by rw [type?_declare, beq_eq_false_iff_ne.2 hxy, h.type]; rfl
  value := by rw [value?_declare, beq_eq_false_iff_ne.2 hxy, h.value]; rfl

/-- A value given in both stores. -/
theorem set (h : s.SameAt t x) (y : String) (value : Value) :
    (s.set y value).SameAt (t.set y value) x where
  type := by rw [type?_set, type?_set, h.type]
  value := by
    rw [value?_set, value?_set]
    split
    · rename_i hxy
      rw [← eq_of_beq hxy, h.value]
    · exact h.value

/-- A value given to another name. -/
theorem set_of_ne (h : s.SameAt t x) (hxy : x ≠ y) (value : Value) : (s.set y value).SameAt t x where
  type := by rw [type?_set, h.type]
  value := by rw [value?_set, beq_eq_false_iff_ne.2 hxy, h.value]; rfl

end Store.SameAt

/-! ### Sinks that answer alike -/

section

variable {σ τ : Type} [Sink σ] [Sink τ]

/-- The sinks give the same answers to the same calls from now on: they are related by a relation that
every call keeps, and at which every call has the same answer. -/
def Sink.Alike (s : σ) (t : τ) : Prop :=
  ∃ B : σ → τ → Prop, B s t ∧ ∀ s t, B s t →
    (∀ bytes, (Sink.write bytes s).1 = (Sink.write bytes t).1 ∧
      B (Sink.write bytes s).2 (Sink.write bytes t).2) ∧
    (Sink.flush s).1 = (Sink.flush t).1 ∧ B (Sink.flush s).2 (Sink.flush t).2

namespace Sink

theorem Alike.write {s : σ} {t : τ} (h : Alike s t) (bytes : List UInt8) :
    (Sink.write bytes s).1 = (Sink.write bytes t).1 ∧
      Alike (Sink.write bytes s).2 (Sink.write bytes t).2 := by
  obtain ⟨B, hst, hB⟩ := h
  obtain ⟨hanswer, hnext⟩ := (hB s t hst).1 bytes
  exact ⟨hanswer, B, hnext, hB⟩

theorem Alike.flush {s : σ} {t : τ} (h : Alike s t) :
    (Sink.flush s).1 = (Sink.flush t).1 ∧ Alike (Sink.flush s).2 (Sink.flush t).2 := by
  obtain ⟨B, hst, hB⟩ := h
  obtain ⟨hanswer, hnext⟩ := (hB s t hst).2
  exact ⟨hanswer, B, hnext, hB⟩

/-- The calls, with their answers, lead from the first state of the sink to the second. -/
inductive Performs (s : σ) : List SinkCall → σ → Prop
  | none : Performs s [] s
  | write {calls : List SinkCall} {t : σ} (bytes : List UInt8) : Performs s calls t →
      Performs s (calls ++ [.write bytes (Sink.write bytes t).1]) (Sink.write bytes t).2
  | flush {calls : List SinkCall} {t : σ} : Performs s calls t →
      Performs s (calls ++ [.flush (Sink.flush t).1]) (Sink.flush t).2

end Sink

/-- Buffers with the same limits answer alike, whatever they hold. -/
theorem Buffer.alike {b c : Buffer} (hroom : b.room = c.room) (hflushes : b.flushes = c.flushes) :
    Sink.Alike b c := by
  refine ⟨fun b c => b.room = c.room ∧ b.flushes = c.flushes, ⟨hroom, hflushes⟩, ?_⟩
  rintro ⟨held, room, flushes⟩ ⟨held', _, _⟩ ⟨rfl, rfl⟩
  constructor
  · intro bytes
    show (Buffer.write bytes _).1 = (Buffer.write bytes _).1 ∧ _
    rcases room with _ | _ | room <;> exact ⟨rfl, rfl, rfl⟩
  · show (Buffer.flush _).1 = (Buffer.flush _).1 ∧ _
    rcases flushes with _ | _ | flushes <;> exact ⟨rfl, rfl, rfl⟩

/-! ### The same effects -/

/-- What has been done to two machines, from `m₀` to `m` and from `n₀` to `n`, is the same, and concerns
only names for which `N` holds. -/
structure SameEffects (N : String → Prop) (m₀ : Machine σ) (n₀ : Machine τ) (m : Machine σ)
    (n : Machine τ) : Prop where
  named : ∀ x, N x → m.store.SameAt n.store x
  left : ∀ x, ¬ N x → m.store.SameAt m₀.store x
  right : ∀ x, ¬ N x → n.store.SameAt n₀.store x
  input : m.input = n.input
  alike : Sink.Alike m.sink n.sink
  output : ∃ calls, Sink.Performs m₀.sink calls m.sink ∧ Sink.Performs n₀.sink calls n.sink
  warnings : ∃ new, m.warnings = m₀.warnings ++ new ∧ n.warnings = n₀.warnings ++ new

variable {N : String → Prop} {m₀ : Machine σ} {n₀ : Machine τ}

/-- Before anything is done. -/
theorem sameEffects_start (hstore : ∀ x, N x → m₀.store.SameAt n₀.store x)
    (hinput : m₀.input = n₀.input) (hsink : Sink.Alike m₀.sink n₀.sink) :
    SameEffects N m₀ n₀ m₀ n₀ where
  named := hstore
  left := fun x _ => .refl m₀.store x
  right := fun x _ => .refl n₀.store x
  input := hinput
  alike := hsink
  output := ⟨[], .none, .none⟩
  warnings := ⟨#[], by simp, by simp⟩

/-- **What a program does to both machines keeps their effects the same.**  Each time the name is one of
the program, so that the others are left alone. -/
theorem translation_sameEffects : Translation id N (SameEffects N m₀ n₀) where
  store := fun h => ⟨fun hx => (h.named _ hx).type.symm, fun hx => (h.named _ hx).value.symm⟩
  declare := by
    intro m n h x hx type value
    exact { h with
      named := fun y hy => (h.named y hy).declare x type value
      left := fun y hy => (h.left y hy).declare_of_ne (fun hyx => hy (hyx ▸ hx)) type value
      right := fun y hy => (h.right y hy).declare_of_ne (fun hyx => hy (hyx ▸ hx)) type value }
  set := by
    intro m n h x hx value
    exact { h with
      named := fun y hy => (h.named y hy).set x value
      left := fun y hy => (h.left y hy).set_of_ne (fun hyx => hy (hyx ▸ hx)) value
      right := fun y hy => (h.right y hy).set_of_ne (fun hyx => hy (hyx ▸ hx)) value }
  warn := by
    intro m n h w
    obtain ⟨new, hm, hn⟩ := h.warnings
    rw [w.rename_id]
    exact { h with warnings := ⟨new.push w, by simp [hm], by simp [hn]⟩ }
  input := fun h => h.input
  read := fun h input => { h with input := rfl }
  write := by
    intro bytes m n h
    obtain ⟨calls, hm, hn⟩ := h.output
    obtain ⟨hanswer, halike⟩ := h.alike.write bytes
    have hn' := hn.write bytes
    rw [← hanswer] at hn'
    exact ⟨hanswer, { h with alike := halike, output := ⟨_, hm.write bytes, hn'⟩ }⟩
  flush := by
    intro m n h
    obtain ⟨calls, hm, hn⟩ := h.output
    obtain ⟨hanswer, halike⟩ := h.alike.flush
    have hn' := hn.flush
    rw [← hanswer] at hn'
    exact ⟨hanswer, { h with alike := halike, output := ⟨_, hm.flush, hn'⟩ }⟩

omit [Sink σ] [Sink τ] in
theorem Translated.agree {α : Type} {T : Machine σ → Machine τ → Prop}
    {x : EStateM.Result Halt (Machine σ) α} {y : EStateM.Result Halt (Machine τ) α}
    (h : Translated id T Eq x y) : Agree T x y := by
  cases h with
  | ok hV hT =>
      subst hV
      exact .ok hT
  | error hT =>
      rw [Halt.rename_id]
      exact .error hT

/-! ### Programs -/

/-- **A program does the same on machines that differ only in what it does not name.**  It comes to the
same end, success or the same error, with the same output and warnings, and behind it the machines have
the same under its names.  What it does not name is in each of them as before. -/
theorem Program.exec_local (fuel : Nat) (p : Program) (m : Machine σ) (n : Machine τ)
    (hstore : ∀ x ∈ p.names, m.store.SameAt n.store x) (hinput : m.input = n.input)
    (hsink : Sink.Alike m.sink n.sink) :
    Agree (SameEffects (· ∈ p.names) m n) (p.exec fuel m) (p.exec fuel n) := by
  have hT : Translation id (· ∈ p.names) (SameEffects (· ∈ p.names) m n) := translation_sameEffects
  have hrun := translates_program hT fuel (fun _ hx => hx) m n (sameEffects_start hstore hinput hsink)
  rw [p.rename_id] at hrun
  exact hrun.agree

end

/-- A program that declares `a` anew with its own value, shows it, and fails at a variable that is not
declared. -/
def stammer : Program :=
  let a : Name := ⟨"a", .point 0⟩
  ⟨[.declaration .letra [⟨a, some (.var a)⟩] (.point 0), .print [.var a] (.point 0),
    .assignment ⟨[a], .var ⟨"b", .point 1⟩, .point 0⟩], .point 0⟩

/-- On one machine `z` is a text and nothing has been written; on the other one it is a truth value, and
stands before `a`. -/
theorem exec_local_stammer :
    let m : Machine Buffer :=
      ⟨⟨[("a", .text "x"), ("z", .text "y")], [("a", .letra), ("z", .letra)]⟩, [], .unlimited, #[]⟩
    let n : Machine Buffer :=
      ⟨⟨[("z", .truth true), ("a", .text "x")], [("z", .tinuod), ("a", .letra)]⟩, [],
        ⟨#[98], none, none⟩, #[.unreachableCode (.point 0)]⟩
    (∀ x ∈ stammer.names, m.store.SameAt n.store x) ∧ Sink.Alike m.sink n.sink ∧
    Agree (SameEffects (· ∈ stammer.names) m n) (stammer.exec 0 m) (stammer.exec 0 n) := by
  intro m n
  have hstore : ∀ x ∈ stammer.names, m.store.SameAt n.store x := by
    have hnames : stammer.names = ["a", "a", "a", "a", "b"] := rfl
    have ha : m.store.SameAt n.store "a" := ⟨rfl, rfl⟩
    have hb : m.store.SameAt n.store "b" := ⟨rfl, rfl⟩
    simp only [hnames, List.forall_mem_cons]
    exact ⟨ha, ha, ha, ha, hb, by simp⟩
  have hsink : Sink.Alike m.sink n.sink := Buffer.alike rfl rfl
  exact ⟨hstore, hsink, Program.exec_local 0 stammer m n hstore rfl hsink⟩

end BisayaLang
