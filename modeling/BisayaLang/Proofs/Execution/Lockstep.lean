/-
**Two runs in step.**

The same program is run on two machines that correspond: they hold the same variables, and otherwise it
is left open what they have in common.  As long as what is written and what is read keeps them
corresponding, so does everything else, and the two runs come to the same end.  Otherwise there is a
task at which they part, and up to it they went through the same tasks.

This is said of runs with the same fuel, so that also the fuel runs out in both or in neither.

Main definitions:

* `BisayaLang.Agree`, `BisayaLang.InTandem` — the same end on machines that correspond;
* `BisayaLang.Congruent` — a correspondence that lets the variables and the warnings change;
* `BisayaLang.Parted` — the task at which two runs part, and what they come to from there;
* `BisayaLang.Shares` — what is written and read keeps machines corresponding, or makes the runs part.

Main results:

* `BisayaLang.Shares.step` — one step of either run;
* `BisayaLang.parallel_program` — **two runs of a program come to the same end, or part at some task**;
* `BisayaLang.Config.Steps.kept` — a property that all tasks keep holds throughout a run.
-/

import BisayaLang.Proofs.Execution.Steps

set_option relaxedAutoImplicit false
set_option autoImplicit false

namespace BisayaLang

/-! ### The same end -/

section

variable {σ τ α β : Type}

/-- The same end, with machines that correspond. -/
inductive Agree (S : Machine σ → Machine τ → Prop) :
    EStateM.Result Halt (Machine σ) α → EStateM.Result Halt (Machine τ) α → Prop
  | ok {a : α} {m : Machine σ} {n : Machine τ} : S m n → Agree S (.ok a m) (.ok a n)
  | error {h : Halt} {m : Machine σ} {n : Machine τ} : S m n → Agree S (.error h m) (.error h n)

/-- On machines that correspond, the computations come to the same end. -/
def InTandem (S : Machine σ → Machine τ → Prop) (x : Exec σ α) (y : Exec τ α) : Prop :=
  ∀ m n, S m n → Agree S (x m) (y n)

/-- Machines that correspond hold the same variables, and they still correspond when a variable is
changed or a warning is given on both. -/
structure Congruent (S : Machine σ → Machine τ → Prop) : Prop where
  store : ∀ {m n}, S m n → m.store = n.store
  setStore : ∀ {m n}, S m n → ∀ s : Store, S { m with store := s } { n with store := s }
  warn : ∀ {m n}, S m n → ∀ w : Warning,
    S { m with warnings := m.warnings.push w } { n with warnings := n.warnings.push w }

variable {S : Machine σ → Machine τ → Prop}

theorem inTandem_pure (a : α) : InTandem S (pure a) (pure a) := fun _ _ h => .ok h

theorem Agree.bind {x : Exec σ α} {y : Exec τ α} {f : α → Exec σ β} {g : α → Exec τ β}
    {m : Machine σ} {n : Machine τ} (h : Agree S (x m) (y n)) (hf : ∀ a, InTandem S (f a) (g a)) :
    Agree S ((x >>= f) m) ((y >>= g) n) := by
  show Agree S (EStateM.bind x f m) (EStateM.bind y g n)
  unfold EStateM.bind
  generalize x m = r at h ⊢
  generalize y n = r' at h ⊢
  cases h with
  | ok hS => exact hf _ _ _ hS
  | error hS => exact .error hS

theorem inTandem_bind {x : Exec σ α} {y : Exec τ α} {f : α → Exec σ β} {g : α → Exec τ β}
    (h : InTandem S x y) (hf : ∀ a, InTandem S (f a) (g a)) : InTandem S (x >>= f) (y >>= g) :=
  fun m n hS => (h m n hS).bind hf

theorem inTandem_fail (fault : RuntimeFault) (span : Span) :
    InTandem S (Exec.fail fault span : Exec σ α) (Exec.fail fault span) := fun _ _ h => .error h

theorem inTandem_ofEval (x : Eval α) : InTandem S (Exec.ofEval x) (Exec.ofEval x) := by
  intro m n h
  cases x with
  | ok a => exact .ok h
  | error e => exact .error h

/-- What is done next depends on the store only. -/
theorem inTandem_get (hS : ∀ {m n}, S m n → m.store = n.store) {f : Machine σ → Exec σ α}
    {g : Machine τ → Exec τ α} (h : ∀ m n, m.store = n.store → InTandem S (f m) (g n)) :
    InTandem S (get >>= f) (get >>= g) := fun m n hmn => h m n (hS hmn) m n hmn

theorem inTandem_eval (hS : ∀ {m n}, S m n → m.store = n.store) (f : Store → Eval α) :
    InTandem S (Exec.eval f) (Exec.eval f) := by
  refine inTandem_get hS fun m n hmn => ?_
  rw [hmn]
  exact inTandem_ofEval _

theorem inTandem_modifyStore (hS : Congruent S) (f : Store → Store) :
    InTandem S (Exec.modifyStore f) (Exec.modifyStore f) := by
  intro m n h
  have hset := hS.setStore h (f m.store)
  refine .ok ?_
  show S { m with store := f m.store } { n with store := f n.store }
  rwa [← hS.store h]

theorem inTandem_warn (hS : Congruent S) (w : Warning) :
    InTandem S (Exec.warn w) (Exec.warn w) := fun _ _ h => .ok (hS.warn h w)

/-! ### Computations that neither write nor read -/

theorem inTandem_declareOne (hS : Congruent S) (type : DataType) (d : Declared) :
    InTandem S (Exec.declareOne type d) (Exec.declareOne type d) := by
  have hfirst : InTandem S (Exec.firstValue type d) (Exec.firstValue type d) := by
    unfold Exec.firstValue
    cases d.value with
    | some e => exact inTandem_eval hS.store _
    | none => exact inTandem_pure _
  refine inTandem_bind hfirst fun value => inTandem_get hS.store fun m n hmn => ?_
  rw [hmn]
  refine inTandem_bind (inTandem_modifyStore hS _) fun _ => ?_
  cases n.store.type? d.name.text with
  | some v => exact inTandem_warn hS _
  | none => exact inTandem_pure _

theorem inTandem_assignFirst (hS : Congruent S) (innermost : Name) (e : Expr) :
    InTandem S (Exec.assignFirst innermost e) (Exec.assignFirst innermost e) :=
  inTandem_bind (inTandem_eval hS.store _) fun _ => inTandem_bind (inTandem_eval hS.store _) fun _ =>
    inTandem_bind (inTandem_modifyStore hS _) fun _ => inTandem_pure _

theorem inTandem_passOnOne (hS : Congruent S) (value : Value) (inner : Name) (innerType : DataType)
    (outer : Name) : InTandem S (Exec.passOnOne value inner innerType outer)
      (Exec.passOnOne value inner innerType outer) := by
  refine inTandem_bind (inTandem_eval hS.store _) fun v => ?_
  split
  · exact inTandem_fail _ _
  · exact inTandem_bind (inTandem_modifyStore hS _) fun _ => inTandem_pure _

theorem inTandem_takeField (hS : Congruent S) (name : Name) (type : DataType) (field : List Char) :
    InTandem S (Exec.takeField name type field) (Exec.takeField name type field) :=
  inTandem_bind (inTandem_ofEval _) fun _ => inTandem_modifyStore hS _

theorem inTandem_stepCounter (hS : Congruent S) (counter : Name) (step : Step) :
    InTandem S (Exec.stepCounter counter step) (Exec.stepCounter counter step) := by
  refine inTandem_bind (inTandem_eval hS.store _) fun v => ?_
  cases v.value with
  | number x => exact inTandem_modifyStore hS _
  | _ => exact inTandem_fail _ _

theorem inTandem_typesOf (hS : ∀ {m n}, S m n → m.store = n.store) (names : List Name) :
    InTandem S (Exec.typesOf names) (Exec.typesOf names) := by
  induction names with
  | nil => exact inTandem_pure _
  | cons name names ih =>
      exact inTandem_bind (inTandem_eval hS _) fun _ => inTandem_bind ih fun _ => inTandem_pure _

/-- The fields of a line that was taken off the input. -/
def Exec.fieldsOf (span : Span) (line : List UInt8) : Exec σ (List (List Char)) :=
  if line.isEmpty then return []
  else
    match Utf8.decode? line with
    | some text => return Input.fields text
    | none => fail (.io .invalidData) span

theorem readFields_eq (span : Span) (m : Machine σ) :
    Exec.readFields span m =
      Exec.fieldsOf span (Input.takeLine m.input).1 { m with input := (Input.takeLine m.input).2 } :=
  rfl

theorem inTandem_fieldsOf (span : Span) (line : List UInt8) :
    InTandem S (Exec.fieldsOf span line) (Exec.fieldsOf span line) := by
  unfold Exec.fieldsOf
  split
  · exact inTandem_pure _
  · cases Utf8.decode? line with
    | some text => exact inTandem_pure _
    | none => exact inTandem_fail _ _

/-- Both machines read the same line, and still correspond behind it. -/
theorem agree_readFields (span : Span) {m : Machine σ} {n : Machine τ}
    (hline : (Input.takeLine m.input).1 = (Input.takeLine n.input).1)
    (hrest : S { m with input := (Input.takeLine m.input).2 }
      { n with input := (Input.takeLine n.input).2 }) :
    Agree S (Exec.readFields span m) (Exec.readFields span n) := by
  rw [readFields_eq, readFields_eq, hline]
  exact inTandem_fieldsOf span _ _ _ hrest

/-- Reading goes in step if taking a line off the input does. -/
theorem inTandem_readTyped (hS : Congruent S) (names : List Name) (span : Span)
    (hread : InTandem S (Exec.readFields span) (Exec.readFields span)) :
    InTandem S (Exec.readTyped names span) (Exec.readTyped names span) := by
  refine inTandem_bind (inTandem_typesOf hS.store names) fun typed => inTandem_bind hread fun fields => ?_
  split
  · exact inTandem_fail _ _
  · exact inTandem_pure _

/-- Printing goes in step if writing a line does. -/
theorem inTandem_printItems [Sink σ] [Sink τ] (hS : ∀ {m n}, S m n → m.store = n.store)
    (hwrite : ∀ line span, InTandem S (Exec.writeLine line span) (Exec.writeLine line span))
    (items : List PrintItem) (span : Span) (line : String) :
    InTandem S (Exec.printItems span line items) (Exec.printItems span line items) := by
  induction items generalizing line with
  | nil =>
      unfold Exec.printItems
      split
      · exact inTandem_pure _
      · exact hwrite line span
  | cons item items ih =>
      cases item with
      | text content s => exact ih _
      | var name => exact inTandem_bind (inTandem_eval hS _) fun v => ih _
      | expr e => exact inTandem_bind (inTandem_eval hS _) fun shown => ih _
      | lineBreak s => exact inTandem_bind (hwrite line s) fun _ => ih _

end

/-! ### Where runs part -/

section

variable {σ τ α : Type} [Sink σ] [Sink τ]

/-- From the state, the run comes to the result and leaves the tasks `k`. -/
def Config.Reaches (c : Config σ) (k : List Task) : EStateM.Result Halt (Machine σ) Unit → Prop
  | .ok _ m => Config.Steps c (.running k m)
  | .error h m => ∃ c', Config.Steps c c' ∧ c'.machine = m ∧ ∀ e, h = .error e → c' = .stopped h m

/-- Behind a step that comes to `r`, before the tasks `us`, the run comes to the result `end'`. -/
def Resumes (r : EStateM.Result Halt (Machine σ) (List Task)) (us k : List Task)
    (end' : EStateM.Result Halt (Machine σ) Unit) : Prop :=
  match r with
  | .ok new m => (Config.running (new ++ us) m).Reaches k end'
  | .error h m => end' = .error h m

theorem Realises.reaches {ts : List Task} {x : Exec σ Unit} (h : Realises ts x) (m : Machine σ)
    (k : List Task) : (Config.running (ts ++ k) m).Reaches k (x m) := by
  have hm := h m
  cases hx : x m with
  | ok _ m' =>
      rw [hx] at hm
      exact hm k
  | error e m' =>
      rw [hx] at hm
      exact hm k

/-- What comes behind is done where the first part ends. -/
theorem Config.Reaches.append {c : Config σ} {us k : List Task} {x y : Exec σ Unit} {m : Machine σ}
    (h : c.Reaches (us ++ k) (x m)) (hy : Realises us y) : c.Reaches k ((do x; y) m) := by
  show c.Reaches k (EStateM.bind x (fun _ => y) m)
  unfold EStateM.bind
  cases hx : x m with
  | error e m' =>
      rw [hx] at h
      exact h
  | ok _ m' =>
      rw [hx] at h
      have hy' := hy.reaches m' k
      simp only
      cases hym : y m' with
      | ok _ m'' =>
          rw [hym] at hy'
          exact h.trans hy'
      | error e m'' =>
          rw [hym] at hy'
          obtain ⟨c', hs, hc⟩ := hy'
          exact ⟨c', h.trans hs, hc⟩

theorem Resumes.append {r : EStateM.Result Halt (Machine σ) (List Task)} {us vs k : List Task}
    {x y : Exec σ Unit} {m : Machine σ} (h : Resumes r us (vs ++ k) (x m)) (hy : Realises vs y) :
    Resumes r us k ((do x; y) m) := by
  cases r with
  | ok new m' => exact Config.Reaches.append h hy
  | error e m' =>
      have hx : x m = .error e m' := h
      show EStateM.bind x (fun _ => y) m = _
      unfold EStateM.bind
      rw [hx]

/-- A task whose step is the first part of a computation. -/
theorem resumes_step {t : Task} {x : Exec σ α} {new : α → List Task} {f : α → Exec σ Unit}
    (ht : t.step = (do let a ← x; return new a)) (h : ∀ a, Realises (new a) (f a)) (m : Machine σ)
    (k : List Task) : Resumes (t.step m) k k ((x >>= f) m) := by
  rw [ht]
  show Resumes (EStateM.bind x (fun a => pure (new a)) m) k k (EStateM.bind x f m)
  unfold EStateM.bind
  cases x m with
  | ok a m' => exact (h a).reaches m' k
  | error e m' => exact rfl

/-- There is a task at which the runs part.  The first run comes to it, both do it on machines that
correspond and are such that they part, and from there both come to their results. -/
def Parted (S : Machine σ → Machine τ → Prop) (Q : Task → Machine σ → Machine τ → Prop)
    (ts : List Task) (m : Machine σ) (r : EStateM.Result Halt (Machine σ) Unit)
    (r' : EStateM.Result Halt (Machine τ) Unit) : Prop :=
  ∀ k, ∃ t us m' n', Config.Steps (.running (ts ++ k) m) (.running (t :: us) m') ∧ S m' n' ∧
    Q t m' n' ∧ Resumes (t.step m') us k r ∧ Resumes (t.step n') us k r'

/-- The tasks carry out both computations, which on machines that correspond come to the same end or
part. -/
structure Parallel (S : Machine σ → Machine τ → Prop) (Q : Task → Machine σ → Machine τ → Prop)
    (ts : List Task) (x : Exec σ Unit) (y : Exec τ Unit) : Prop where
  left : Realises ts x
  right : Realises ts y
  ends : ∀ m n, S m n → Agree S (x m) (y n) ∨ Parted S Q ts m (x m) (y n)

/-- Writing and reading keep machines corresponding, or make the runs part. -/
structure Shares (S : Machine σ → Machine τ → Prop) (Q : Task → Machine σ → Machine τ → Prop) :
    Prop extends Congruent S where
  print : ∀ items span m n, S m n →
    Agree S (Exec.print items span m) (Exec.print items span n) ∨
      Q (.statement (.print items span)) m n
  read : ∀ names span m n, S m n →
    Agree S (Exec.readTyped names span m) (Exec.readTyped names span n) ∨
      Q (.statement (.input names span)) m n
  flush : ∀ span m n, S m n →
    Agree S (Exec.useSink span Sink.flush m) (Exec.useSink span Sink.flush n) ∨ Q (.flush span) m n

variable {S : Machine σ → Machine τ → Prop} {Q : Task → Machine σ → Machine τ → Prop}

/-! ### Putting runs together -/

theorem parallel_nil : Parallel S Q [] (pure ()) (pure ()) :=
  ⟨realises_nil, realises_nil, fun m n h => .inl (inTandem_pure () m n h)⟩

theorem parallel_append {ts us : List Task} {x x' : Exec σ Unit} {y y' : Exec τ Unit}
    (h : Parallel S Q ts x y) (h' : Parallel S Q us x' y') :
    Parallel S Q (ts ++ us) (do x; x') (do y; y') := by
  refine ⟨realises_append h.left h'.left, realises_append h.right h'.right, fun m n hS => ?_⟩
  rcases h.ends m n hS with hend | hpart
  · -- the runs are still in step where the second part starts
    show Agree S (EStateM.bind x (fun _ => x') m) (EStateM.bind y (fun _ => y') n) ∨
      Parted S Q (ts ++ us) m (EStateM.bind x (fun _ => x') m) (EStateM.bind y (fun _ => y') n)
    have hleft := h.left.reaches m
    unfold EStateM.bind
    generalize x m = r at hend hleft ⊢
    generalize y n = r' at hend ⊢
    cases hend with
    | error hS' => exact .inl (.error hS')
    | @ok _ m' n' hS' =>
        refine (h'.ends m' n' hS').imp id fun hpart k => ?_
        obtain ⟨t, vs, m'', n'', hsteps, hrest⟩ := hpart k
        refine ⟨t, vs, m'', n'', ?_, hrest⟩
        rw [List.append_assoc]
        exact (hleft (us ++ k)).trans hsteps
  · refine .inr fun k => ?_
    obtain ⟨t, vs, m', n', hsteps, hS', hQ, hr, hr'⟩ := hpart (us ++ k)
    rw [List.append_assoc]
    exact ⟨t, vs, m', n', hsteps, hS', hQ, hr.append h'.left, hr'.append h'.right⟩

/-- A task whose step is the first part of a computation. -/
theorem parallel_step {t : Task} {x : Exec σ α} {y : Exec τ α} {new : α → List Task}
    {f : α → Exec σ Unit} {g : α → Exec τ Unit} (ht : t.step = (do let a ← x; return new a))
    (ht' : t.step = (do let a ← y; return new a))
    (hxy : ∀ m n, S m n → Agree S (x m) (y n) ∨ Q t m n)
    (h : ∀ a, Parallel S Q (new a) (f a) (g a)) : Parallel S Q [t] (x >>= f) (y >>= g) := by
  refine ⟨realises_step ht fun a => (h a).left, realises_step ht' fun a => (h a).right,
    fun m n hS => ?_⟩
  rcases hxy m n hS with hend | hQ
  · have hstep : t.step m = EStateM.bind x (fun a => pure (new a)) m := by rw [ht]; rfl
    show Agree S (EStateM.bind x f m) (EStateM.bind y g n) ∨
      Parted S Q [t] m (EStateM.bind x f m) (EStateM.bind y g n)
    unfold EStateM.bind at *
    generalize x m = r at hend hstep ⊢
    generalize y n = r' at hend ⊢
    cases hend with
    | error hS' => exact .inl (.error hS')
    | @ok a m' n' hS' =>
        refine ((h a).ends m' n' hS').imp id fun hpart k => ?_
        obtain ⟨u, vs, m'', n'', hsteps, hrest⟩ := hpart k
        exact ⟨u, vs, m'', n'', .head (.proceed hstep) hsteps, hrest⟩
  · refine .inr fun k => ⟨t, k, m, n, .refl _, hS, hQ, ?_, ?_⟩
    · exact resumes_step ht (fun a => (h a).left) m k
    · exact resumes_step ht' (fun a => (h a).right) n k

theorem parallel_inTandem {t : Task} {x : Exec σ α} {y : Exec τ α} {new : α → List Task}
    {f : α → Exec σ Unit} {g : α → Exec τ Unit} (ht : t.step = (do let a ← x; return new a))
    (ht' : t.step = (do let a ← y; return new a)) (hxy : InTandem S x y)
    (h : ∀ a, Parallel S Q (new a) (f a) (g a)) : Parallel S Q [t] (x >>= f) (y >>= g) :=
  parallel_step ht ht' (fun m n hS => .inl (hxy m n hS)) h

/-- A task that only makes way for others. -/
theorem parallel_of_pure {t : Task} {ts : List Task} {x : Exec σ Unit} {y : Exec τ Unit}
    (ht : (t.step : Exec σ (List Task)) = pure ts) (ht' : (t.step : Exec τ (List Task)) = pure ts)
    (h : Parallel S Q ts x y) : Parallel S Q [t] x y := by
  have hstep := parallel_inTandem (x := (pure () : Exec σ Unit)) (y := (pure () : Exec τ Unit))
    (by rw [ht, pure_bind]) (by rw [ht', pure_bind]) (inTandem_pure ()) fun _ => h
  rw [pure_bind, pure_bind] at hstep
  exact hstep

/-- A task that is done in one step. -/
theorem parallel_of_last {t : Task} {x : Exec σ Unit} {y : Exec τ Unit}
    (ht : t.step = (do x; return [])) (ht' : t.step = (do y; return []))
    (hxy : ∀ m n, S m n → Agree S (x m) (y n) ∨ Q t m n) : Parallel S Q [t] x y := by
  rw [show x = (do x; pure ()) from (bind_pure x).symm,
    show y = (do y; pure ()) from (bind_pure y).symm]
  exact parallel_step ht ht' hxy fun _ => parallel_nil

/-! ### Statements -/

theorem parallel_declare (hS : Congruent S) (type : DataType) (vars : List Declared) :
    Parallel S Q [.declare type vars] (Exec.declare type vars) (Exec.declare type vars) := by
  induction vars with
  | nil => exact parallel_of_pure rfl rfl parallel_nil
  | cons d vars ih => exact parallel_inTandem rfl rfl (inTandem_declareOne hS type d) fun _ => ih

theorem parallel_passOn (hS : Congruent S) (value : Value) (inner : Name) (innerType : DataType)
    (outers : List Name) : Parallel S Q [.passOn value inner innerType outers]
      (Exec.passOn value inner innerType outers) (Exec.passOn value inner innerType outers) := by
  induction outers generalizing inner innerType with
  | nil => exact parallel_of_pure rfl rfl parallel_nil
  | cons outer outers ih =>
      rw [passOn_cons, passOn_cons]
      exact parallel_inTandem rfl rfl (inTandem_passOnOne hS value inner innerType outer)
        fun outerType => ih outer outerType

theorem parallel_assign (hS : Congruent S) (a : Assignment) :
    Parallel S Q [.statement (.assignment a)] (Exec.assign a) (Exec.assign a) := by
  cases hrev : a.targets.reverse with
  | nil =>
      simp only [Exec.assign, hrev]
      exact parallel_of_pure (by simp only [Task.step, hrev]) (by simp only [Task.step, hrev])
        parallel_nil
  | cons innermost outers =>
      simp only [assign_cons hrev]
      have hstep : ∀ {υ : Type} [Sink υ], (Task.statement (.assignment a)).step =
          (Exec.assignFirst innermost a.value >>= fun x =>
            (pure [.passOn x.1 innermost x.2 outers] : Exec υ (List Task))) := by
        intro υ _
        simp only [Task.step, hrev]
      refine parallel_inTandem hstep hstep
        (inTandem_assignFirst hS innermost a.value) fun x => ?_
      exact parallel_passOn hS x.1 innermost x.2 outers

theorem parallel_takeFields (hS : Congruent S) (typed : List (Name × DataType))
    (fields : List (List Char)) : Parallel S Q [.takeFields typed fields]
      (Exec.takeFields typed fields) (Exec.takeFields typed fields) := by
  induction typed generalizing fields with
  | nil => exact parallel_of_pure rfl rfl parallel_nil
  | cons x typed ih =>
      cases fields with
      | nil => exact parallel_of_pure rfl rfl parallel_nil
      | cons field fields =>
          rw [takeFields_cons, takeFields_cons]
          exact parallel_inTandem rfl rfl (inTandem_takeField hS x.1 x.2 field) fun _ => ih fields

theorem parallel_read (hS : Shares S Q) (names : List Name) (span : Span) :
    Parallel S Q [.statement (.input names span)] (Exec.read names span) (Exec.read names span) := by
  rw [read_eq, read_eq]
  exact parallel_step rfl rfl (hS.read names span) fun x =>
    parallel_takeFields hS.toCongruent x.1 x.2

/-- A test decides which tasks are left, in both runs alike. -/
theorem parallel_test (hS : Congruent S) {t : Task} {test : Expr} {ts us : List Task}
    {x x' : Exec σ Unit} {y y' : Exec τ Unit}
    (ht : (t.step : Exec σ (List Task)) = (do
      let holds ← Exec.eval fun s => test.evalTruth s
      return if holds then ts else us))
    (ht' : (t.step : Exec τ (List Task)) = (do
      let holds ← Exec.eval fun s => test.evalTruth s
      return if holds then ts else us))
    (h : Parallel S Q ts x y) (h' : Parallel S Q us x' y') :
    Parallel S Q [t] (do if ← Exec.eval fun s => test.evalTruth s then x else x')
      (do if ← Exec.eval fun s => test.evalTruth s then y else y') := by
  refine parallel_inTandem ht ht' (inTandem_eval hS.store _) fun holds => ?_
  cases holds with
  | true => exact h
  | false => exact h'

/-- The repetitions of a loop run out of fuel in both runs or in neither. -/
theorem parallel_repeatF (hS : Congruent S) {test : Expr} {counter : Name} {step : Step}
    {body : Block} {x : Exec σ Unit} {y : Exec τ Unit}
    (h : Parallel S Q [.statements body.body] x y) (fuel : Nat) :
    Parallel S Q [.repetition test counter step body]
      (Exec.repeatF (Exec.eval fun s => test.evalTruth s)
        (do x; Exec.stepCounter counter step) fuel)
      (Exec.repeatF (Exec.eval fun s => test.evalTruth s)
        (do y; Exec.stepCounter counter step) fuel) := by
  induction fuel with
  | zero =>
      exact ⟨realises_repeatF h.left 0, realises_repeatF h.right 0, fun m n hmn => .inl (.error hmn)⟩
  | succ fuel ih =>
      have hcount : Parallel S Q [.count counter step] (Exec.stepCounter counter step)
          (Exec.stepCounter counter step) :=
        parallel_of_last rfl rfl fun m n hmn => .inl (inTandem_stepCounter hS counter step m n hmn)
      refine parallel_test hS rfl rfl ?_ parallel_nil
      rw [bind_assoc, bind_assoc]
      exact parallel_append h (parallel_append hcount ih)

mutual

theorem parallel_stmt (hS : Shares S Q) (fuel : Nat) :
    ∀ s : Stmt, Parallel S Q [.statement s] (s.exec fuel) (s.exec fuel)
  | .declaration type vars _ =>
      parallel_of_pure rfl rfl (parallel_declare hS.toCongruent type vars)
  | .assignment a => parallel_assign hS.toCongruent a
  | .print items span => parallel_of_last rfl rfl (hS.print items span)
  | .input names span => parallel_read hS names span
  | .conditional _ body rest _ =>
      parallel_test hS.toCongruent rfl rfl (parallel_block hS fuel body)
        (parallel_otherwise hS fuel rest)
  | .loop first _ _ _ body _ =>
      parallel_of_pure rfl rfl (parallel_append (parallel_assign hS.toCongruent first)
        (parallel_repeatF hS.toCongruent (parallel_block hS fuel body) fuel))

theorem parallel_block (hS : Shares S Q) (fuel : Nat) :
    ∀ b : Block, Parallel S Q [.statements b.body] (b.exec fuel) (b.exec fuel)
  | .mk body _ => parallel_execAll hS fuel body

theorem parallel_otherwise (hS : Shares S Q) (fuel : Nat) :
    ∀ o : Otherwise, Parallel S Q [.otherwise o] (o.exec fuel) (o.exec fuel)
  | .nothing => parallel_of_pure rfl rfl parallel_nil
  | .branch _ body rest =>
      parallel_test hS.toCongruent rfl rfl (parallel_block hS fuel body)
        (parallel_otherwise hS fuel rest)
  | .always body => parallel_of_pure rfl rfl (parallel_block hS fuel body)

theorem parallel_execAll (hS : Shares S Q) (fuel : Nat) :
    ∀ ss : List Stmt, Parallel S Q [.statements ss] (execAll fuel ss) (execAll fuel ss)
  | [] => parallel_of_pure rfl rfl parallel_nil
  | s :: ss =>
      parallel_of_pure rfl rfl (parallel_append (parallel_stmt hS fuel s)
        (parallel_execAll hS fuel ss))

end

/-- **Two runs of a program come to the same end, or part at some task.** -/
theorem parallel_program (hS : Shares S Q) (fuel : Nat) (p : Program) :
    Parallel S Q p.tasks (p.exec fuel) (p.exec fuel) :=
  parallel_append (parallel_execAll hS fuel p.body) (parallel_of_last rfl rfl (hS.flush p.span))

/-! ### One step -/

/-- The task writes or reads. -/
def Task.usesWorld : Task → Bool
  | .statement (.print _ _) | .statement (.input _ _) | .flush _ => true
  | _ => false

/-- A task that neither writes nor reads. -/
theorem inTandem_task (hS : Congruent S) :
    ∀ {t : Task}, t.usesWorld = false → InTandem S t.step t.step
  | .statement (.declaration type vars _), _ => inTandem_pure _
  | .statement (.assignment a), _ => by
      simp only [Task.step]
      cases a.targets.reverse with
      | nil => exact inTandem_pure _
      | cons innermost outers =>
          exact inTandem_bind (inTandem_assignFirst hS innermost a.value) fun _ => inTandem_pure _
  | .statement (.print _ _), h => by cases h
  | .statement (.input _ _), h => by cases h
  | .statement (.conditional _ _ _ _), _ =>
      inTandem_bind (inTandem_eval hS.store _) fun _ => inTandem_pure _
  | .statement (.loop _ _ _ _ _ _), _ => inTandem_pure _
  | .statements [], _ => inTandem_pure _
  | .statements (_ :: _), _ => inTandem_pure _
  | .otherwise .nothing, _ => inTandem_pure _
  | .otherwise (.branch _ _ _), _ => inTandem_bind (inTandem_eval hS.store _) fun _ => inTandem_pure _
  | .otherwise (.always _), _ => inTandem_pure _
  | .declare _ [], _ => inTandem_pure _
  | .declare type (d :: _), _ => inTandem_bind (inTandem_declareOne hS type d) fun _ => inTandem_pure _
  | .passOn _ _ _ [], _ => inTandem_pure _
  | .passOn value inner innerType (outer :: _), _ =>
      inTandem_bind (inTandem_passOnOne hS value inner innerType outer) fun _ => inTandem_pure _
  | .takeFields [] _, _ => inTandem_pure _
  | .takeFields (_ :: _) [], _ => inTandem_pure _
  | .takeFields ((name, type) :: _) (field :: _), _ =>
      inTandem_bind (inTandem_takeField hS name type field) fun _ => inTandem_pure _
  | .repetition _ _ _ _, _ => inTandem_bind (inTandem_eval hS.store _) fun _ => inTandem_pure _
  | .count counter step, _ =>
      inTandem_bind (inTandem_stepCounter hS counter step) fun _ => inTandem_pure _
  | .flush _, h => by cases h

/-- **One step of either run**: they stay in step, or part. -/
theorem Shares.step (hS : Shares S Q) (t : Task) {m : Machine σ} {n : Machine τ} (h : S m n) :
    Agree S (t.step m) (t.step n) ∨ Q t m n := by
  cases hio : t.usesWorld with
  | false => exact .inl (inTandem_task hS.toCongruent hio m n h)
  | true =>
      unfold Task.usesWorld at hio
      split at hio
      · exact (hS.print _ _ m n h).imp (fun h => h.bind fun _ => inTandem_pure _) id
      · exact (hS.read _ _ m n h).imp (fun h => h.bind fun _ => inTandem_pure _) id
      · exact (hS.flush _ m n h).imp (fun h => h.bind fun _ => inTandem_pure _) id
      · cases hio

end

/-! ### What is kept -/

section

variable {σ τ α : Type}

theorem Agree.mono {S S' : Machine σ → Machine τ → Prop} {r : EStateM.Result Halt (Machine σ) α}
    {r' : EStateM.Result Halt (Machine τ) α} (h : Agree S r r') (hS : ∀ m n, S m n → S' m n) :
    Agree S' r r' := by
  cases h with
  | ok h => exact .ok (hS _ _ h)
  | error h => exact .error (hS _ _ h)

theorem Agree.machines {S : Machine σ → Machine τ → Prop} {r : EStateM.Result Halt (Machine σ) α}
    {r' : EStateM.Result Halt (Machine τ) α} (h : Agree S r r') : S (machineOf r) (machineOf r') := by
  cases h with
  | ok h => exact h
  | error h => exact h

/-- The machine corresponds to itself, as long as the property holds of it. -/
def Itself (P : Machine σ → Prop) (m n : Machine σ) : Prop := n = m ∧ P m

/-- A property that no change of a variable and no warning touches. -/
theorem congruent_itself {P : Machine σ → Prop}
    (hset : ∀ {m}, P m → ∀ s : Store, P { m with store := s })
    (hwarn : ∀ {m}, P m → ∀ w : Warning, P { m with warnings := m.warnings.push w }) :
    Congruent (Itself P) where
  store := by
    rintro m _ ⟨rfl, -⟩
    rfl
  setStore := by
    rintro m _ ⟨rfl, hP⟩ s
    exact ⟨rfl, hset hP s⟩
  warn := by
    rintro m _ ⟨rfl, hP⟩ w
    exact ⟨rfl, hwarn hP w⟩

theorem InTandem.kept {P : Machine σ → Prop} {x : Exec σ α} (h : InTandem (Itself P) x x)
    {m : Machine σ} (hm : P m) : P (machineOf (x m)) := (h m m ⟨rfl, hm⟩).machines.2

/-- A step is made where a task is left. -/
theorem Config.Step.task [Sink σ] {c c' : Config σ} (h : Config.Step c c') :
    ∃ t ts m, c = .running (t :: ts) m := by
  cases h with
  | proceed _ => exact ⟨_, _, _, rfl⟩
  | halt _ => exact ⟨_, _, _, rfl⟩

/-- A step of a task that keeps a property. -/
theorem Config.Step.kept [Sink σ] {P : Machine σ → Prop} {t : Task} {ts : List Task} {m : Machine σ}
    {c : Config σ} (hs : Config.Step (.running (t :: ts) m) c)
    (h : InTandem (Itself P) t.step t.step) (hm : P m) : P c.machine := by
  have hk := h.kept hm
  cases hs with
  | proceed hstep =>
      rw [hstep] at hk
      exact hk
  | halt hstep =>
      rw [hstep] at hk
      exact hk

/-- A property that all tasks keep holds throughout a run. -/
theorem Config.Steps.kept [Sink σ] {P : Machine σ → Prop}
    (hP : Shares (Itself P) fun _ _ _ => False) {c c' : Config σ} (h : Config.Steps c c')
    (hc : P c.machine) : P c'.machine := by
  induction h with
  | refl _ => exact hc
  | head hs _ ih =>
      obtain ⟨t, ts, m, rfl⟩ := hs.task
      have htask : InTandem (Itself P) t.step t.step := fun m n hmn =>
        (hP.step t hmn).resolve_right id
      exact ih (hs.kept htask hc)

end

end BisayaLang
