/-
**Consistent renaming.**

The names of variables are arbitrary.  If all identifiers of a program get other names, different ones for
different ones, and the variables of the machine it runs on get them too, then the run is the same one,
and what it leaves behind is what the first run leaves behind, with the other names: the store, the
warnings, and the error that ends it.  This is said as an equation between the two runs, for every machine
and any amount of fuel.

That different names stay different is needed in two places only: where a store is searched for a name,
and where something is put under a name.

Main definitions:

* `BisayaLang.Store.rename`, `BisayaLang.Machine.rename` — stores and machines with other names;
* `BisayaLang.renameEnd` — the end of a run with other names.

Main results:

* `BisayaLang.Store.rename_declare`, `BisayaLang.Store.rename_set` — declaring and setting under the new
  name;
* `BisayaLang.Program.exec_rename` — **the run of a program with other names is the run of the program,
  with other names**.
-/

import BisayaLang.Proofs.Execution.Translation

set_option relaxedAutoImplicit false
set_option autoImplicit false

namespace BisayaLang

/-! ### Stores with other names -/

section

variable (r : String → String)

/-- The entries with other names. -/
def Store.renameEntries {α : Type} (entries : List (String × α)) : List (String × α) :=
  entries.map fun e => (r e.1, e.2)

/-- The store with other names. -/
def Store.rename (s : Store) : Store := ⟨renameEntries r s.values, renameEntries r s.types⟩

end

namespace Store

variable {r : String → String} {α : Type}

theorem beq_rename (hr : Function.Injective r) (x y : String) : (r x == r y) = (x == y) := by
  by_cases h : x = y
  · rw [h, beq_self_eq_true, beq_self_eq_true]
  · rw [beq_eq_false_iff_ne.2 h, beq_eq_false_iff_ne.2 (hr.ne h)]

theorem lookup_renameEntries (hr : Function.Injective r) (name : String)
    (entries : List (String × α)) :
    (renameEntries r entries).lookup (r name) = entries.lookup name := by
  induction entries with
  | nil => rfl
  | cons e entries ih =>
      rw [renameEntries, List.map_cons, List.lookup_cons, List.lookup_cons, beq_rename hr]
      cases name == e.1 with
      | true => rfl
      | false => exact ih

theorem put_renameEntries (hr : Function.Injective r) (name : String) (a : α)
    (entries : List (String × α)) :
    put (r name) a (renameEntries r entries) = renameEntries r (put name a entries) := by
  induction entries with
  | nil => rfl
  | cons e entries ih =>
      rw [renameEntries, List.map_cons, put, put, beq_rename hr]
      cases name == e.1 with
      | true => rfl
      | false => exact congrArg ((r e.1, e.2) :: ·) ih

theorem type?_rename (hr : Function.Injective r) (s : Store) (name : String) :
    (s.rename r).type? (r name) = s.type? name :=
  lookup_renameEntries hr name s.types

theorem value?_rename (hr : Function.Injective r) (s : Store) (name : String) :
    (s.rename r).value? (r name) = s.value? name :=
  lookup_renameEntries hr name s.values

theorem rename_declare (hr : Function.Injective r) (s : Store) (name : String) (type : DataType)
    (value : Value) :
    (s.rename r).declare (r name) type value = (s.declare name type value).rename r := by
  unfold declare rename
  rw [put_renameEntries hr, put_renameEntries hr]

theorem rename_set (hr : Function.Injective r) (s : Store) (name : String) (value : Value) :
    (s.rename r).set (r name) value = (s.set name value).rename r := by
  unfold set
  rw [value?_rename hr]
  cases s.value? name with
  | none => rfl
  | some old =>
      show Store.mk (put (r name) value (renameEntries r s.values)) _ = _
      rw [put_renameEntries hr]
      rfl

end Store

/-! ### Machines and ends of runs with other names -/

section

variable {σ α : Type} (r : String → String)

/-- The machine with other names.  The input that is left and the sink have none. -/
def Machine.rename (m : Machine σ) : Machine σ :=
  ⟨m.store.rename r, m.input, m.sink, m.warnings.map (Warning.rename r)⟩

/-- The end of a run with other names. -/
def renameEnd :
    EStateM.Result Halt (Machine σ) α → EStateM.Result Halt (Machine σ) α
  | .ok a m => .ok a (m.rename r)
  | .error h m => .error (h.rename r) (m.rename r)

variable {r}

/-- To differ in the names only is kept by all that a program can do. -/
theorem translation_rename [Sink σ] (hr : Function.Injective r) :
    Translation r (fun _ => True) fun m n : Machine σ => n = m.rename r where
  store := by
    rintro m _ rfl
    exact ⟨fun _ => Store.type?_rename hr m.store _, fun _ => Store.value?_rename hr m.store _⟩
  declare := by
    rintro m _ rfl x - type value
    simp only [Machine.rename, Store.rename_declare hr]
  set := by
    rintro m _ rfl x - value
    simp only [Machine.rename, Store.rename_set hr]
  warn := by
    rintro m _ rfl w
    simp only [Machine.rename, Array.map_push]
  input := by
    rintro m _ rfl
    rfl
  read := by
    rintro m _ rfl input
    rfl
  write := by
    rintro bytes m _ rfl
    exact ⟨rfl, rfl⟩
  flush := by
    rintro m _ rfl
    exact ⟨rfl, rfl⟩

theorem Translated.eq_renameEnd {x y : EStateM.Result Halt (Machine σ) α}
    (h : Translated r (fun m n => n = m.rename r) Eq x y) : y = renameEnd r x := by
  cases h with
  | ok hV hT =>
      subst hV hT
      rfl
  | error hT =>
      subst hT
      rfl

end

/-! ### Running with other names -/

/-- **The run of a program with other names is the run of the program, with other names**, if different
names stay different: on a machine whose variables have the new names it writes and reads the same, gives
the same warnings and stops with the same error at the same place, and leaves the same store. -/
theorem Program.exec_rename {σ : Type} [Sink σ] {r : String → String} (hr : Function.Injective r)
    (fuel : Nat) (p : Program) (m : Machine σ) :
    (p.rename r).exec fuel (m.rename r) = renameEnd r (p.exec fuel m) :=
  (translates_program (translation_rename hr) fuel (fun _ _ => trivial) m _ rfl).eq_renameEnd

/-- A program that declares `b` anew, shows a text that looks like its name, and gives `b` a value that
cannot be passed on to `t`. -/
def crossed : Program :=
  let b : Name := ⟨"b", .point 1⟩
  let t : Name := ⟨"t", .point 2⟩
  ⟨[.declaration .letra [⟨b, none⟩] (.point 0), .print [.text "b" (.point 0)] (.point 0),
    .assignment ⟨[t, b], .text "x" (.point 3), .point 0⟩], .point 0⟩

theorem exec_rename_crossed :
    Function.Injective (fun name => "my_" ++ name) ∧
    (crossed.rename fun name => "my_" ++ name).exec 0
      ⟨⟨[("my_b", .truth true), ("my_t", .truth true)], [("my_b", .tinuod), ("my_t", .tinuod)]⟩, [10],
        Buffer.unlimited, #[]⟩ =
      .error (.error ⟨.typeMismatch "my_t" .tinuod "my_b" .letra, ⟨1, 2⟩⟩)
        ⟨⟨[("my_b", .text "x"), ("my_t", .truth true)], [("my_b", .letra), ("my_t", .tinuod)]⟩, [10],
          ⟨#[98, 10], none, none⟩, #[.redeclaration "my_b" .tinuod .letra (.point 1)]⟩ := by
  have hinj : Function.Injective (fun name => "my_" ++ name) := fun _ _ h =>
    (String.append_right_inj "my_").1 h
  refine ⟨hinj, ?_⟩
  have hexec : crossed.exec 0
      ⟨⟨[("b", .truth true), ("t", .truth true)], [("b", .tinuod), ("t", .tinuod)]⟩, [10],
        Buffer.unlimited, #[]⟩ =
      .error (.error ⟨.typeMismatch "t" .tinuod "b" .letra, ⟨1, 2⟩⟩)
        ⟨⟨[("b", .text "x"), ("t", .truth true)], [("b", .letra), ("t", .tinuod)]⟩, [10],
          ⟨#[98, 10], none, none⟩, #[.redeclaration "b" .tinuod .letra (.point 1)]⟩ := by
    with_unfolding_all rfl
  have hrename := Program.exec_rename hinj 0 crossed
    ⟨⟨[("b", .truth true), ("t", .truth true)], [("b", .tinuod), ("t", .tinuod)]⟩, [10],
      Buffer.unlimited, #[]⟩
  rw [hexec] at hrename
  have hb : "my_" ++ "b" = "my_b" := by decide
  have ht : "my_" ++ "t" = "my_t" := by decide
  simpa [Machine.rename, Store.rename, Store.renameEntries, renameEnd, Halt.rename, RuntimeError.rename,
    RuntimeFault.rename, Warning.rename, hb, ht] using hrename

end BisayaLang
