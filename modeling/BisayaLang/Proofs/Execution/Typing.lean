/-
**Variables hold values of their types.**

A variable has a type from its declaration on, and whatever is stored in it later has to fit.  Five
parts of the machine write to the store: declarations, the innermost target of an assignment, the other
targets, input, and the step of a loop.  Each of them keeps the store well typed, for a different
reason, and none of them leaves it otherwise when it fails.

Two tasks rely on something beyond a well-typed store.  A value that is passed on fits the type of the
target it comes from, which is compared with the type of the next one.  The types that input is read by
are looked up before anything is written, so that they have to stay right while it is.  A task is
*ready* when what it relies on holds.

Main definitions:

* `BisayaLang.Store.Typed` — every variable holds a value that fits its type;
* `BisayaLang.Triple` — what a computation needs of the store, and what it leaves behind;
* `BisayaLang.Task.Ready`, `BisayaLang.Config.Typed` — the invariant of a run.

Main results:

* `BisayaLang.Task.step_typed` — one step of a task keeps the store well typed;
* `BisayaLang.Config.Steps.typed` — so do any number of steps;
* `BisayaLang.store_typed_throughout` — **variables hold values of their types** at every point of every
  session.
-/

import BisayaLang.Proofs.Execution.Steps

set_option relaxedAutoImplicit false
set_option autoImplicit false

namespace BisayaLang

/-! ### Well-typed stores -/

/-- Every variable holds a value that fits its type. -/
def Store.Typed (s : Store) : Prop :=
  ∀ name v, s.get? name = some v → v.value.fits v.type = true

theorem Store.typed_empty : Store.empty.Typed := by
  intro name v h
  simp [Store.empty, Store.get?] at h

theorem Store.Typed.declare {s : Store} (h : s.Typed) {type : DataType} {value : Value}
    (hv : value.fits type = true) (name : String) : (s.declare name type value).Typed := by
  intro other v hget
  rw [Store.get?_declare] at hget
  split at hget
  · cases hget
    exact hv
  · exact h other v hget

/-- A value that fits the type of the variable may be stored. -/
theorem Store.Typed.set {s : Store} (h : s.Typed) {name : String} {value : Value}
    (hv : ∀ v, s.get? name = some v → value.fits v.type = true) : (s.set name value).Typed := by
  intro other v hget
  rw [Store.get?_set] at hget
  split at hget
  · obtain ⟨w, hw, rfl⟩ := Option.map_eq_some_iff.1 hget
    exact hv w hw
  · exact h other v hget

/-- Storing a value keeps all types. -/
theorem Store.type_set {s : Store} {name other : String} {value : Value} {type : DataType}
    (h : ∃ v, s.get? other = some v ∧ v.type = type) :
    ∃ v, (s.set name value).get? other = some v ∧ v.type = type := by
  obtain ⟨v, hv, rfl⟩ := h
  rw [Store.get?_set]
  split
  · rename_i ho
    rw [← eq_of_beq ho, hv]
    exact ⟨_, rfl, rfl⟩
  · exact ⟨v, hv, rfl⟩

/-! ### Values that fit -/

/-- An expression that is evaluated for a type gives a value that fits. -/
theorem fits_valueFor {s : Store} {type : DataType} {e : Expr} {value : Value}
    (h : e.valueFor s type = .ok value) : value.fits type = true := by
  have hmap : ∀ {α : Type} {f : α → Value} {x : Eval α}, (∀ a, (f a).fits type = true) →
      f <$> x = .ok value → value.fits type = true := by
    intro α f x hf hx
    cases x with
    | error e => exact absurd hx (by simp [Functor.map, Except.map])
    | ok a =>
        cases hx
        exact hf a
  cases type with
  | numero => exact hmap (fun _ => rfl) h
  | tipik => exact hmap (fun _ => rfl) h
  | tinuod => exact hmap (fun _ => rfl) h
  | letra => exact hmap (fun _ => rfl) h

/-- A field that is read for a type gives a value that fits. -/
theorem fits_convert {name : Name} {type : DataType} {field : List Char} {value : Value}
    (h : Input.convert name type field = .ok value) : value.fits type = true := by
  cases type with
  | numero =>
      simp only [Input.convert] at h
      split at h <;> cases h
      rfl
  | tipik =>
      simp only [Input.convert] at h
      split at h <;> cases h
      rfl
  | tinuod =>
      simp only [Input.convert] at h
      split at h
      · cases h
        rfl
      · split at h <;> cases h
        rfl
  | letra =>
      cases h
      rfl

/-! ### What computations leave behind -/

section

variable {σ α β : Type}

/-- The result leaves a store for which `Q` holds, and a failure leaves one that is well typed. -/
def Leaves (Q : α → Store → Prop) : EStateM.Result Halt (Machine σ) α → Prop
  | .ok a m => Q a m.store
  | .error _ m => m.store.Typed

/-- A computation that starts with a store for which `P` holds leaves one for which `Q` holds, and
where it fails, one that is still well typed. -/
def Triple (P : Store → Prop) (x : Exec σ α) (Q : α → Store → Prop) : Prop :=
  ∀ m, P m.store → Leaves Q (x m)

variable {P : Store → Prop} {Q : α → Store → Prop}

theorem triple_pure {a : α} (h : ∀ s, P s → Q a s) : Triple P (pure a : Exec σ α) Q :=
  fun m hm => h m.store hm

theorem triple_bind {x : Exec σ β} {f : β → Exec σ α} {R : β → Store → Prop} (hx : Triple P x R)
    (hf : ∀ b, Triple (R b) (f b) Q) : Triple P (x >>= f) Q := by
  intro m hm
  have h := hx m hm
  show Leaves Q (EStateM.bind x f m)
  unfold EStateM.bind
  cases hxm : x m with
  | ok b m' =>
      rw [hxm] at h
      exact hf b m' h
  | error e m' =>
      rw [hxm] at h
      exact h

theorem Triple.mono {x : Exec σ α} {Q' : α → Store → Prop} (h : Triple P x Q)
    (hQ : ∀ a s, Q a s → Q' a s) : Triple P x Q' := by
  intro m hm
  have hx := h m hm
  cases hxm : x m with
  | ok a m' =>
      rw [hxm] at hx
      exact hQ a m'.store hx
  | error e m' =>
      rw [hxm] at hx
      exact hx

theorem triple_fail {fault : RuntimeFault} {span : Span} (h : ∀ s, P s → s.Typed) :
    Triple P (Exec.fail fault span : Exec σ α) Q := fun m hm => h m.store hm

theorem triple_ofEval {x : Eval α} (h : ∀ s, P s → s.Typed) :
    Triple P (Exec.ofEval x : Exec σ α) fun a s => P s ∧ x = .ok a := by
  intro m hm
  cases x with
  | ok a => exact ⟨hm, rfl⟩
  | error e => exact h m.store hm

theorem triple_eval {f : Store → Eval α} (h : ∀ s, P s → s.Typed) :
    Triple P (Exec.eval f : Exec σ α) fun a s => P s ∧ f s = .ok a := by
  intro m hm
  have hf : (Exec.eval f : Exec σ α) m = (Exec.ofEval (f m.store) : Exec σ α) m := rfl
  rw [hf]
  cases hx : f m.store with
  | ok a => exact ⟨hm, hx⟩
  | error e => exact h m.store hm

theorem triple_modifyStore {f : Store → Store} {Q : Unit → Store → Prop}
    (h : ∀ s, P s → Q () (f s)) : Triple P (Exec.modifyStore f : Exec σ Unit) Q :=
  fun m hm => h m.store hm

theorem triple_get : Triple P (get : Exec σ (Machine σ)) fun m s => P s ∧ m.store = s :=
  fun _ hm => ⟨hm, rfl⟩

theorem triple_set {m : Machine σ} {Q : Unit → Store → Prop} (h : ∀ s, P s → Q () m.store) :
    Triple P (set m : Exec σ Unit) Q := fun m' hm => h m'.store hm

theorem triple_warn {w : Warning} : Triple P (Exec.warn w : Exec σ Unit) fun _ => P :=
  fun _ hm => hm

theorem Store.find_eq_ok {s : Store} {name : Name} {v : Variable} (h : s.find name = .ok v) :
    s.get? name.text = some v := by
  unfold Store.find at h
  split at h
  · cases h
    assumption
  · cases h

/-! ### Computations that write no variable -/

variable (hP : ∀ s, P s → s.Typed)

include hP

theorem triple_useSink {span : Span} {act : σ → Except IoKind Unit × σ} :
    Triple P (Exec.useSink span act) fun _ => P := by
  rintro ⟨store, input, sink, warnings⟩ hm
  rcases hact : act sink with ⟨_ | _, sink'⟩ <;> simp only [Exec.useSink, hact]
  · exact hP store hm
  · exact hm

theorem triple_printItems [Sink σ] (span : Span) (line : String) (items : List PrintItem) :
    Triple P (Exec.printItems span line items : Exec σ Unit) fun _ => P := by
  induction items generalizing line with
  | nil =>
      rw [Exec.printItems]
      split
      · exact triple_pure fun _ h => h
      · exact triple_useSink hP
  | cons i items ih =>
      cases i with
      | text content _ => exact ih _
      | var name =>
          refine triple_bind (triple_eval hP) fun v m hm => ?_
          exact ih _ m hm.1
      | expr e =>
          refine triple_bind (triple_eval hP) fun v m hm => ?_
          exact ih _ m hm.1
      | lineBreak _ => exact triple_bind (triple_useSink hP) fun _ => ih _

theorem triple_readFields (span : Span) :
    Triple P (Exec.readFields span : Exec σ (List (List Char))) fun _ => P := by
  refine triple_bind triple_get fun m => ?_
  refine triple_bind (triple_set fun s hs => ?_ : Triple _ _ fun _ => P) fun _ => ?_
  · exact hs.2 ▸ hs.1
  · split
    · exact triple_pure fun _ h => h
    · cases Utf8.decode? (Input.takeLine m.input).1 with
      | some text => exact triple_pure fun _ h => h
      | none => exact triple_fail hP

omit hP

/-- The variable is declared with the type. -/
def Store.HasType (s : Store) (x : Name × DataType) : Prop :=
  ∃ v, s.get? x.1.text = some v ∧ v.type = x.2

theorem triple_typesOf (names : List Name) {P : Store → Prop} (hP : ∀ s, P s → s.Typed) :
    Triple P (Exec.typesOf names : Exec σ (List (Name × DataType)))
      fun typed s => P s ∧ ∀ x ∈ typed, s.HasType x := by
  induction names generalizing P with
  | nil => exact triple_pure fun _ h => ⟨h, fun _ hx => absurd hx (by simp)⟩
  | cons name names ih =>
      refine triple_bind (triple_eval hP) fun v => ?_
      refine triple_bind (ih fun s h => hP s h.1) fun typed => ?_
      refine triple_pure fun s h => ⟨h.1.1, fun x hx => ?_⟩
      rcases List.mem_cons.1 hx with rfl | hx
      · exact ⟨v, Store.find_eq_ok h.1.2, rfl⟩
      · exact h.2 x hx

/-! ### Computations that write a variable -/

theorem triple_firstValue (type : DataType) (d : Declared) :
    Triple Store.Typed (Exec.firstValue type d : Exec σ Value)
      fun value s => s.Typed ∧ value.fits type = true := by
  unfold Exec.firstValue
  split
  · exact (triple_eval fun _ h => h).mono fun value s h => ⟨h.1, fits_valueFor h.2⟩
  · exact triple_pure fun s h => ⟨h, Value.fits_defaultValue type⟩

theorem triple_declareOne (type : DataType) (d : Declared) :
    Triple Store.Typed (Exec.declareOne type d : Exec σ Unit) fun _ => Store.Typed := by
  refine triple_bind (triple_firstValue type d) fun value => ?_
  refine triple_bind triple_get fun m => ?_
  refine triple_bind (triple_modifyStore fun s hs => ?_ : Triple _ _ fun _ => Store.Typed) fun _ => ?_
  · exact hs.1.1.declare hs.1.2 _
  · cases m.store.type? d.name.text with
    | some v => exact triple_warn
    | none => exact triple_pure fun _ h => h

theorem triple_assignFirst (innermost : Name) (e : Expr) :
    Triple Store.Typed (Exec.assignFirst innermost e : Exec σ (Value × DataType))
      fun x s => s.Typed ∧ x.1.fits x.2 = true := by
  refine triple_bind (triple_eval fun _ h => h) fun v => ?_
  refine triple_bind (triple_eval fun _ h => h.1) fun value => ?_
  have hset : Triple (fun s => (s.Typed ∧ s.find innermost = .ok v) ∧ e.valueFor s v.type = .ok value)
      (Exec.modifyStore fun s => s.set innermost.text value : Exec σ Unit)
      fun _ s => s.Typed ∧ value.fits v.type = true := by
    refine triple_modifyStore fun s h => ⟨h.1.1.set fun w hw => ?_, fits_valueFor h.2⟩
    rw [Store.find_eq_ok h.1.2] at hw
    cases hw
    exact fits_valueFor h.2
  exact triple_bind hset fun _ => triple_pure fun s h => h

/-- The types of two targets are compared, so that the value fits the next one as well. -/
theorem triple_passOnOne {value : Value} {inner : Name} {innerType : DataType}
    (hv : value.fits innerType = true) (outer : Name) :
    Triple Store.Typed (Exec.passOnOne value inner innerType outer : Exec σ DataType)
      fun type s => s.Typed ∧ value.fits type = true := by
  refine triple_bind (triple_eval fun _ h => h) fun v => ?_
  split
  · exact triple_fail fun s h => h.1
  · rename_i htype
    have htype : v.type = innerType := Decidable.not_not.1 htype
    have hset : Triple (fun s => s.Typed ∧ s.find outer = .ok v)
        (Exec.modifyStore fun s => s.set outer.text value : Exec σ Unit)
        fun _ s => s.Typed := by
      refine triple_modifyStore fun s h => h.1.set fun w hw => ?_
      rw [Store.find_eq_ok h.2] at hw
      cases hw
      rw [htype]
      exact hv
    exact triple_bind hset fun _ => triple_pure fun s h => ⟨h, by rw [htype]; exact hv⟩

theorem triple_readTyped (names : List Name) (span : Span) :
    Triple Store.Typed (Exec.readTyped names span : Exec σ _)
      fun x s => s.Typed ∧ ∀ y ∈ x.1, s.HasType y := by
  refine triple_bind (triple_typesOf names fun _ h => h) fun typed => ?_
  refine triple_bind (triple_readFields (fun _ h => h.1) span) fun fields => ?_
  split
  · exact triple_fail fun s h => h.1
  · exact triple_pure fun s h => h

/-- The type of the variable was looked up before, and no field that was stored since has changed it. -/
theorem triple_takeField {name : Name} {type : DataType} {field : List Char}
    {typed : List (Name × DataType)} :
    Triple (fun s => s.Typed ∧ ∀ x ∈ (name, type) :: typed, s.HasType x)
      (Exec.takeField name type field : Exec σ Unit)
      fun _ s => s.Typed ∧ ∀ x ∈ typed, s.HasType x := by
  refine triple_bind (triple_ofEval fun _ h => h.1) fun value => ?_
  refine triple_modifyStore fun s h => ⟨h.1.1.set fun w hw => ?_, fun x hx => ?_⟩
  · obtain ⟨v, hv, hvt⟩ := h.1.2 (name, type) (by simp)
    rw [hv] at hw
    cases hw
    rw [hvt]
    exact fits_convert h.2
  · exact Store.type_set (h.1.2 x (by simp [hx]))

/-- A counter that holds a number has a type for numbers, since the store was well typed before. -/
theorem triple_stepCounter (counter : Name) (step : Step) :
    Triple Store.Typed (Exec.stepCounter counter step : Exec σ Unit) fun _ => Store.Typed := by
  refine triple_bind (triple_eval fun _ h => h) fun v => ?_
  cases hv : v.value with
  | number x =>
      refine triple_modifyStore fun s h => h.1.set fun w hw => ?_
      have hfits := h.1 _ _ hw
      rw [Store.find_eq_ok h.2] at hw
      cases hw
      rw [hv] at hfits
      cases ht : v.type with
      | numero => rfl
      | tipik => rfl
      | tinuod =>
          rw [ht] at hfits
          cases hfits
      | letra =>
          rw [ht] at hfits
          cases hfits
  | truth b => exact triple_fail fun s h => h.1
  | text t => exact triple_fail fun s h => h.1

end

/-! ### The invariant of a run -/

/-- What a task relies on holds. -/
def Task.Ready (s : Store) : Task → Prop
  | .passOn value _ innerType _ => value.fits innerType = true
  | .takeFields typed _ => ∀ x ∈ typed, s.HasType x
  | _ => True

/-- The first task is ready, and the others are so whatever happens to the store before their turn. -/
def TasksReady (s : Store) : List Task → Prop
  | [] => True
  | t :: ts => t.Ready s ∧ ∀ u ∈ ts, ∀ s', u.Ready s'

/-- The invariant of a run. -/
def Config.Typed {σ : Type} : Config σ → Prop
  | .running ts m => m.store.Typed ∧ TasksReady m.store ts
  | .stopped _ m => m.store.Typed

theorem tasksReady_one {s : Store} {t : Task} (h : t.Ready s) : TasksReady s [t] :=
  ⟨h, fun u hu => absurd hu (by simp)⟩

theorem tasksReady_append {s : Store} {ts us : List Task} (ht : TasksReady s ts)
    (hu : ∀ u ∈ us, ∀ s', u.Ready s') : TasksReady s (ts ++ us) := by
  cases ts with
  | nil =>
      cases us with
      | nil => trivial
      | cons u us => exact ⟨hu u (by simp) s, fun w hw => hu w (by simp [hw])⟩
  | cons t ts =>
      refine ⟨ht.1, fun w hw => ?_⟩
      rcases List.mem_append.1 hw with hw | hw
      · exact ht.2 w hw
      · exact hu w hw

section

variable {σ : Type}

theorem triple_test {P : Store → Prop} (hP : ∀ s, P s → s.Typed) {test : Expr} {ts us : List Task}
    (hts : ∀ s, TasksReady s ts) (hus : ∀ s, TasksReady s us) :
    Triple P (do
      let holds ← Exec.eval fun s => test.evalTruth s
      return if holds then ts else us : Exec σ (List Task)) fun new s => s.Typed ∧ TasksReady s new := by
  refine triple_bind (triple_eval hP) fun holds => triple_pure fun s h => ⟨hP s h.1, ?_⟩
  cases holds with
  | true => exact hts s
  | false => exact hus s

theorem Config.Typed.store {c : Config σ} (h : c.Typed) : c.machine.store.Typed := by
  cases c with
  | running ts m => exact h.1
  | stopped e m => exact h

variable [Sink σ]

/-- **One step of a task keeps the store well typed**, and what is left of the task is ready. -/
theorem Task.step_typed (t : Task) :
    Triple (fun s => s.Typed ∧ t.Ready s) (t.step : Exec σ (List Task))
      fun new s => s.Typed ∧ TasksReady s new := by
  have hfirst : ∀ s : Store, s.Typed ∧ t.Ready s → s.Typed := fun s h => h.1
  -- one case for each equation of `Task.step`; only tasks that hold a value or a type are ready
  -- for a reason
  match t with
  | .statement (.declaration _ _ _) =>
      exact triple_pure fun s h => ⟨h.1, tasksReady_one trivial⟩
  | .statement (.assignment a) =>
      simp only [Task.step]
      cases a.targets.reverse with
      | nil => exact triple_pure fun s h => ⟨h.1, trivial⟩
      | cons innermost outers =>
          refine triple_bind (fun m hm => triple_assignFirst innermost a.value m hm.1) fun x => ?_
          exact triple_pure fun s h => ⟨h.1, tasksReady_one h.2⟩
  | .statement (.print items span) =>
      refine triple_bind (triple_printItems hfirst span "" items) fun _ => ?_
      exact triple_pure fun s h => ⟨h.1, trivial⟩
  | .statement (.input names span) =>
      refine triple_bind (fun m hm => triple_readTyped names span m hm.1) fun x => ?_
      exact triple_pure fun s h => ⟨h.1, tasksReady_one h.2⟩
  | .statement (.conditional _ _ _ _) =>
      exact triple_test hfirst (fun _ => tasksReady_one trivial) (fun _ => tasksReady_one trivial)
  | .statement (.loop _ _ _ _ _ _) =>
      exact triple_pure fun s h => ⟨h.1, trivial, by simp [Task.Ready]⟩
  | .statements [] => exact triple_pure fun s h => ⟨h.1, trivial⟩
  | .statements (_ :: _) => exact triple_pure fun s h => ⟨h.1, trivial, by simp [Task.Ready]⟩
  | .otherwise .nothing => exact triple_pure fun s h => ⟨h.1, trivial⟩
  | .otherwise (.branch _ _ _) =>
      exact triple_test hfirst (fun _ => tasksReady_one trivial) (fun _ => tasksReady_one trivial)
  | .otherwise (.always _) => exact triple_pure fun s h => ⟨h.1, tasksReady_one trivial⟩
  | .declare _ [] => exact triple_pure fun s h => ⟨h.1, trivial⟩
  | .declare type (d :: _) =>
      refine triple_bind (fun m hm => triple_declareOne type d m hm.1) fun _ => ?_
      exact triple_pure fun s h => ⟨h, tasksReady_one trivial⟩
  | .passOn _ _ _ [] => exact triple_pure fun s h => ⟨h.1, trivial⟩
  | .passOn value inner innerType (outer :: _) =>
      refine triple_bind (fun m hm => triple_passOnOne hm.2 outer m hm.1) fun type => ?_
      exact triple_pure fun s h => ⟨h.1, tasksReady_one h.2⟩
  | .takeFields ((name, type) :: typed) (field :: _) =>
      refine triple_bind (fun m hm => triple_takeField m hm) fun _ => ?_
      exact triple_pure fun s h => ⟨h.1, tasksReady_one h.2⟩
  | .takeFields [] _ => exact triple_pure fun s h => ⟨h.1, trivial⟩
  | .takeFields (_ :: _) [] => exact triple_pure fun s h => ⟨h.1, trivial⟩
  | .repetition _ _ _ _ =>
      exact triple_test hfirst (fun _ => ⟨trivial, by simp [Task.Ready]⟩) fun _ => trivial
  | .count counter step =>
      refine triple_bind (fun m hm => triple_stepCounter counter step m hm.1) fun _ => ?_
      exact triple_pure fun s h => ⟨h, trivial⟩
  | .flush span =>
      refine triple_bind (triple_useSink hfirst) fun _ => ?_
      exact triple_pure fun s h => ⟨h.1, trivial⟩

/-- One step of a run keeps the invariant. -/
theorem Config.Step.typed {c c' : Config σ} (h : Config.Step c c') (hc : c.Typed) : c'.Typed := by
  cases h with
  | @proceed t ts new m m' hstep =>
      have ht := t.step_typed m ⟨hc.1, hc.2.1⟩
      rw [hstep] at ht
      exact ⟨ht.1, tasksReady_append ht.2 hc.2.2⟩
  | @halt t ts e m m' hstep =>
      have ht := t.step_typed m ⟨hc.1, hc.2.1⟩
      rw [hstep] at ht
      exact ht

/-- Any number of steps keep the invariant. -/
theorem Config.Steps.typed {c c' : Config σ} (h : Config.Steps c c') (hc : c.Typed) :
    c'.Typed := by
  induction h with
  | refl _ => exact hc
  | head hs _ ih => exact ih (hs.typed hc)

theorem Program.Passes.typed {p : Program} {m m' : Machine σ} (h : p.Passes m m')
    (hm : m.store.Typed) : m'.store.Typed := by
  obtain ⟨c, hs, rfl⟩ := h
  have hready : TasksReady m.store p.tasks := ⟨trivial, by simp [Task.Ready]⟩
  exact (hs.typed ⟨hm, hready⟩).store

theorem Visits.typed {ps : List Program} {m m' : Machine σ} (h : Visits m ps m')
    (hm : m.store.Typed) : m'.store.Typed := by
  induction h with
  | here _ _ => exact hm
  | later hp _ ih => exact ih (hp.typed hm)

/-- Programs that run one after the other on one machine, from an empty store and with any input and
any sink, find at every point of their runs that each variable holds a value that fits its type; so does
whoever looks at the machine after a session, however its programs ended. -/
theorem store_typed_throughout (input : List UInt8) (sink : σ) :
    (∀ ps m, Visits (.start input sink) ps m → m.store.Typed) ∧
    ∀ fuel sources, (Machine.session fuel (.start input sink) sources).store.Typed := by
  have hstart : (Machine.start input sink).store.Typed := Store.typed_empty
  refine ⟨fun ps m h => h.typed hstart, fun fuel sources => ?_⟩
  obtain ⟨ps, hps⟩ := visits_session fuel (.start input sink) sources
  exact hps.typed hstart

end

/-- A program that stops in the middle of an assignment: the truth value reaches `b`, but not `t`, which
is for text. -/
def clash : Program :=
  let name (text : String) : Name := ⟨text, .point 0⟩
  ⟨[.declaration .tinuod [⟨name "b", none⟩] (.point 0),
    .declaration .letra [⟨name "t", none⟩] (.point 0),
    .assignment ⟨[name "t", name "b"], .bool true (.point 0), .point 0⟩], .point 0⟩

theorem store_typed_throughout_clash :
    ∃ m : Machine Buffer, Visits (.start [] .unlimited) [clash] m ∧
      m.store.get? "b" = some ⟨.tinuod, .truth true⟩ ∧ m.store.get? "t" = some ⟨.letra, .text ""⟩ ∧
      m.store.Typed :=
  have hv := .later (clash.passes_exec 0 (.start [] Buffer.unlimited)) (.here _ [])
  ⟨_, hv, rfl, rfl, (store_typed_throughout [] Buffer.unlimited).1 [clash] _ hv⟩

end BisayaLang
