/-
**Running a program step by step.**

`Program.exec` says what a run comes to, but not what the machine goes through on its way.  Here a run
is cut into steps: what is left to be done is a list of *tasks*, and one step does a bit of the first of
them and puts what is left of it in its place.  No step changes more than one variable, so that between
the steps every state of the store is seen that there is during the run.  Steps need no fuel: a loop
that goes on forever takes infinitely many of them.

Both ways of running are the same: what `exec` comes to, with any fuel, is what the steps come to, and a
run that is short of fuel has come to a machine that the steps pass through.

Main definitions:

* `BisayaLang.Task`, `BisayaLang.Task.step` — something left to be done, and doing a bit of it;
* `BisayaLang.Config`, `BisayaLang.Config.Step`, `BisayaLang.Config.Steps` — states of a run, one step,
  and several;
* `BisayaLang.Program.Passes` — a run of a program passes through a machine;
* `BisayaLang.Visits` — so does a session of several programs.

Main results:

* `BisayaLang.realises_stmt` — the steps of a statement carry out what running it comes to;
* `BisayaLang.Program.passes_exec` — **the machine that a program leaves is one its steps pass through**;
* `BisayaLang.visits_session` — the same for sessions.
-/

import BisayaLang.Run.Session

set_option relaxedAutoImplicit false
set_option autoImplicit false

namespace BisayaLang

/-! ### Tasks -/

/-- Something that is left to be done. -/
inductive Task where
  | statement (s : Stmt)
  | statements (ss : List Stmt)
  /-- what follows the first branch of a conditional -/
  | otherwise (o : Otherwise)
  | declare (type : DataType) (vars : List Declared)
  /-- the value goes on from the target `inner` to those left of it -/
  | passOn (value : Value) (inner : Name) (innerType : DataType) (outers : List Name)
  /-- the fields go to the variables -/
  | takeFields (typed : List (Name × DataType)) (fields : List (List Char))
  /-- the repetitions of a loop, from a test on -/
  | repetition (test : Expr) (counter : Name) (step : Step) (body : Block)
  | count (counter : Name) (step : Step)
  | flush (span : Span)

section

variable {σ : Type}

/-- Assigns a value to the rightmost target, and gives it with its type. -/
def Exec.assignFirst (innermost : Name) (e : Expr) : Exec σ (Value × DataType) := do
  let v ← Exec.eval fun s => s.find innermost
  let value ← Exec.eval fun s => e.valueFor s v.type
  Exec.modifyStore fun s => s.set innermost.text value
  return (value, v.type)

/-- Passes a value on to one more target, and gives the type of that. -/
def Exec.passOnOne (value : Value) (inner : Name) (innerType : DataType) (outer : Name) :
    Exec σ DataType := do
  let v ← Exec.eval fun s => s.find outer
  if v.type ≠ innerType then
    Exec.fail (.typeMismatch outer.text v.type inner.text innerType) (outer.span.cover inner.span)
  else
    Exec.modifyStore fun s => s.set outer.text value
    return v.type

/-- Reads the fields of a line that has enough of them, with the variables that they are for. -/
def Exec.readTyped (names : List Name) (span : Span) :
    Exec σ (List (Name × DataType) × List (List Char)) := do
  let typed ← Exec.typesOf names
  let fields ← Exec.readFields span
  if fields.length < names.length then
    Exec.fail (.insufficientInput names.length fields.length) span
  else return (typed, fields)

/-- Gives one field to a variable. -/
def Exec.takeField (name : Name) (type : DataType) (field : List Char) : Exec σ Unit := do
  let value ← Exec.ofEval (Input.convert name type field)
  Exec.modifyStore fun s => s.set name.text value

variable [Sink σ]

/-- Does a bit of a task, and gives what is left of it. -/
def Task.step : Task → Exec σ (List Task)
  | .statement (.declaration type vars _) => return [.declare type vars]
  | .statement (.assignment a) =>
      match a.targets.reverse with
      | [] => return []
      | innermost :: outers => do
          let (value, type) ← Exec.assignFirst innermost a.value
          return [.passOn value innermost type outers]
  | .statement (.print items span) => do
      Exec.print items span
      return []
  | .statement (.input names span) => do
      let (typed, fields) ← Exec.readTyped names span
      return [.takeFields typed fields]
  | .statement (.conditional test body rest _) => do
      let holds ← Exec.eval fun s => test.evalTruth s
      return if holds then [.statements body.body] else [.otherwise rest]
  | .statement (.loop first test counter step body _) =>
      return [.statement (.assignment first), .repetition test counter step body]
  | .statements [] => return []
  | .statements (s :: ss) => return [.statement s, .statements ss]
  | .otherwise .nothing => return []
  | .otherwise (.branch test body rest) => do
      let holds ← Exec.eval fun s => test.evalTruth s
      return if holds then [.statements body.body] else [.otherwise rest]
  | .otherwise (.always body) => return [.statements body.body]
  | .declare _ [] => return []
  | .declare type (d :: vars) => do
      Exec.declareOne type d
      return [.declare type vars]
  | .passOn _ _ _ [] => return []
  | .passOn value inner innerType (outer :: outers) => do
      let outerType ← Exec.passOnOne value inner innerType outer
      return [.passOn value outer outerType outers]
  | .takeFields ((name, type) :: typed) (field :: fields) => do
      Exec.takeField name type field
      return [.takeFields typed fields]
  | .takeFields _ _ => return []
  | .repetition test counter step body => do
      let holds ← Exec.eval fun s => test.evalTruth s
      return if holds then
        [.statements body.body, .count counter step, .repetition test counter step body]
      else []
  | .count counter step => do
      Exec.stepCounter counter step
      return []
  | .flush span => do
      Exec.useSink span Sink.flush
      return []

end

/-! ### Steps -/

/-- A state of a run: there are tasks left, or it has stopped early. -/
inductive Config (σ : Type) where
  | running (tasks : List Task) (m : Machine σ)
  | stopped (h : Halt) (m : Machine σ)

/-- The machine of a state. -/
def Config.machine {σ : Type} : Config σ → Machine σ
  | .running _ m | .stopped _ m => m

section

variable {σ : Type} [Sink σ]

/-- One step of a run. -/
inductive Config.Step : Config σ → Config σ → Prop
  | proceed {t : Task} {ts new : List Task} {m m' : Machine σ} : t.step m = .ok new m' →
      Config.Step (.running (t :: ts) m) (.running (new ++ ts) m')
  | halt {t : Task} {ts : List Task} {h : Halt} {m m' : Machine σ} : t.step m = .error h m' →
      Config.Step (.running (t :: ts) m) (.stopped h m')

/-- Any number of steps. -/
inductive Config.Steps : Config σ → Config σ → Prop
  | refl (c : Config σ) : Config.Steps c c
  | head {c c' c'' : Config σ} : Config.Step c c' → Config.Steps c' c'' → Config.Steps c c''

theorem Config.Steps.trans {c c' c'' : Config σ} (h : Config.Steps c c') (h' : Config.Steps c' c'') :
    Config.Steps c c'' := by
  induction h with
  | refl _ => exact h'
  | head hs _ ih => exact .head hs (ih h')

/-! ### Tasks that carry out what running comes to -/

/-- From the machine `m`, whatever tasks stand behind them, the tasks come to the result: they are done
and leave its machine, or the run stops with its error, or it passes through the machine where the fuel
ran out. -/
def Leads (ts : List Task) (m : Machine σ) : EStateM.Result Halt (Machine σ) Unit → Prop
  | .ok _ m' => ∀ k, Config.Steps (.running (ts ++ k) m) (.running k m')
  | .error h m' => ∀ k, ∃ c, Config.Steps (.running (ts ++ k) m) c ∧ c.machine = m' ∧
      ∀ e, h = .error e → c = .stopped h m'

/-- The tasks come to what the computation comes to, on every machine. -/
def Realises (ts : List Task) (x : Exec σ Unit) : Prop := ∀ m, Leads ts m (x m)

theorem realises_nil : Realises [] (pure () : Exec σ Unit) := fun m _ => .refl (.running _ m)

theorem realises_append {ts us : List Task} {x y : Exec σ Unit} (hx : Realises ts x)
    (hy : Realises us y) : Realises (ts ++ us) (do x; y) := by
  intro m
  have hm := hx m
  show Leads (ts ++ us) m (EStateM.bind x (fun _ => y) m)
  unfold EStateM.bind
  cases h : x m with
  | ok _ m' =>
      rw [h] at hm
      have hm' := hy m'
      simp only
      cases h' : y m' with
      | ok _ m'' =>
          rw [h'] at hm'
          intro k
          rw [List.append_assoc]
          exact (hm (us ++ k)).trans (hm' k)
      | error e m'' =>
          rw [h'] at hm'
          intro k
          obtain ⟨c, hs, hc⟩ := hm' k
          rw [List.append_assoc]
          exact ⟨c, (hm (us ++ k)).trans hs, hc⟩
  | error e m' =>
      rw [h] at hm
      intro k
      rw [List.append_assoc]
      exact hm (us ++ k)

/-- A task carries out a computation whose first part is what its step does, if what is left of the task
carries out the rest. -/
theorem realises_step {α : Type} {t : Task} {x : Exec σ α} {new : α → List Task}
    {f : α → Exec σ Unit} (ht : t.step = (do let a ← x; return new a))
    (h : ∀ a, Realises (new a) (f a)) : Realises [t] (x >>= f) := by
  intro m
  have hstep : t.step m = EStateM.bind x (fun a => pure (new a)) m := by rw [ht]; rfl
  show Leads [t] m (EStateM.bind x f m)
  unfold EStateM.bind at *
  cases hx : x m with
  | ok a m' =>
      rw [hx] at hstep
      have hm' := h a m'
      simp only
      cases hf : f a m' with
      | ok _ m'' =>
          rw [hf] at hm'
          intro k
          exact .head (.proceed hstep) (hm' k)
      | error e m'' =>
          rw [hf] at hm'
          intro k
          obtain ⟨c, hs, hc⟩ := hm' k
          exact ⟨c, .head (.proceed hstep) hs, hc⟩
  | error e m' =>
      rw [hx] at hstep
      intro k
      exact ⟨.stopped e m', .head (.halt hstep) (.refl _), rfl, fun _ _ => rfl⟩

/-- A task that only makes way for others carries out what they do. -/
theorem realises_of_pure {t : Task} {ts : List Task} {x : Exec σ Unit}
    (ht : (t.step : Exec σ (List Task)) = pure ts) (h : Realises ts x) : Realises [t] x := by
  have hstep : t.step = ((pure () : Exec σ Unit) >>= fun _ => pure ts) := by rw [ht, pure_bind]
  have hx := realises_step hstep fun _ => h
  rw [pure_bind] at hx
  exact hx

/-- A task that is done in one step. -/
theorem realises_of_last {t : Task} {x : Exec σ Unit}
    (ht : t.step = (do x; return [])) : Realises [t] x := by
  rw [show x = (do x; pure ()) from (bind_pure x).symm]
  exact realises_step ht fun _ => realises_nil

/-! ### Statements without blocks -/

theorem realises_declare (type : DataType) (vars : List Declared) :
    Realises [.declare type vars] (Exec.declare type vars : Exec σ Unit) := by
  induction vars with
  | nil => exact realises_of_pure rfl realises_nil
  | cons d vars ih => exact realises_step rfl fun _ => ih

omit [Sink σ] in
theorem passOn_cons (value : Value) (inner : Name) (innerType : DataType) (outer : Name)
    (outers : List Name) :
    (Exec.passOn value inner innerType (outer :: outers) : Exec σ Unit) = (do
      let outerType ← Exec.passOnOne value inner innerType outer
      Exec.passOn value outer outerType outers) := by
  simp only [Exec.passOn, Exec.passOnOne, bind_assoc]
  congr
  funext v
  split
  · rfl
  · simp only [bind_assoc, pure_bind]

theorem realises_passOn (value : Value) (inner : Name) (innerType : DataType)
    (outers : List Name) : Realises [.passOn value inner innerType outers]
      (Exec.passOn value inner innerType outers : Exec σ Unit) := by
  induction outers generalizing inner innerType with
  | nil => exact realises_of_pure rfl realises_nil
  | cons outer outers ih =>
      rw [passOn_cons]
      exact realises_step rfl fun outerType => ih outer outerType

omit [Sink σ] in
/-- The innermost target takes the value of the expression, and the others take it from there. -/
theorem assign_cons {a : Assignment} {innermost : Name} {outers : List Name}
    (h : a.targets.reverse = innermost :: outers) :
    (Exec.assign a : Exec σ Unit) =
      (Exec.assignFirst innermost a.value >>= fun x => Exec.passOn x.1 innermost x.2 outers) := by
  simp only [Exec.assign, h, Exec.assignFirst, bind_assoc, pure_bind]

theorem realises_assign (a : Assignment) :
    Realises [.statement (.assignment a)] (Exec.assign a : Exec σ Unit) := by
  cases hrev : a.targets.reverse with
  | nil =>
      have hassign : (Exec.assign a : Exec σ Unit) = pure () := by simp only [Exec.assign, hrev]
      rw [hassign]
      exact realises_of_pure (by simp only [Task.step, hrev]) realises_nil
  | cons innermost outers =>
      rw [assign_cons hrev]
      refine realises_step (by simp only [Task.step, hrev]; rfl) fun x => ?_
      exact realises_passOn x.1 innermost x.2 outers

omit [Sink σ] in
theorem takeFields_cons (x : Name × DataType) (typed : List (Name × DataType)) (field : List Char)
    (fields : List (List Char)) :
    (Exec.takeFields (x :: typed) (field :: fields) : Exec σ Unit) = (do
      Exec.takeField x.1 x.2 field
      Exec.takeFields typed fields) := by
  simp only [Exec.takeFields, Exec.takeField, bind_assoc]

theorem realises_takeFields (typed : List (Name × DataType)) (fields : List (List Char)) :
    Realises [.takeFields typed fields] (Exec.takeFields typed fields : Exec σ Unit) := by
  induction typed generalizing fields with
  | nil => exact realises_of_pure rfl realises_nil
  | cons x typed ih =>
      cases fields with
      | nil => exact realises_of_pure rfl realises_nil
      | cons field fields =>
          rw [takeFields_cons]
          exact realises_step rfl fun _ => ih fields

omit [Sink σ] in
/-- First the line is read, then its fields go to the variables. -/
theorem read_eq (names : List Name) (span : Span) :
    (Exec.read names span : Exec σ Unit) = (do
      let (typed, fields) ← Exec.readTyped names span
      Exec.takeFields typed fields) := by
  simp only [Exec.read, Exec.readTyped, bind_assoc]
  congr
  funext typed
  congr
  funext fields
  split
  · rfl
  · simp only [pure_bind]

theorem realises_read (names : List Name) (span : Span) :
    Realises [.statement (.input names span)] (Exec.read names span : Exec σ Unit) := by
  rw [read_eq]
  exact realises_step rfl fun x => realises_takeFields x.1 x.2

/-! ### Statements with blocks -/

/-- A test decides which tasks are left. -/
theorem realises_test {t : Task} {test : Expr} {ts us : List Task} {x y : Exec σ Unit}
    (ht : (t.step : Exec σ (List Task)) = (do
      let holds ← Exec.eval fun s => test.evalTruth s
      return if holds then ts else us))
    (hx : Realises ts x) (hy : Realises us y) :
    Realises [t] (do if ← Exec.eval fun s => test.evalTruth s then x else y) := by
  refine realises_step ht fun holds => ?_
  cases holds with
  | true => exact hx
  | false => exact hy

/-- The repetitions of a loop, with any fuel.  Without fuel the run stands before a test. -/
theorem realises_repeatF {test : Expr} {counter : Name} {step : Step} {body : Block}
    {x : Exec σ Unit} (hx : Realises [.statements body.body] x) (fuel : Nat) :
    Realises [.repetition test counter step body]
      (Exec.repeatF (Exec.eval fun s => test.evalTruth s)
        (do x; Exec.stepCounter counter step) fuel) := by
  induction fuel with
  | zero => exact fun m k => ⟨_, .refl _, rfl, fun _ he => absurd he (by simp)⟩
  | succ fuel ih =>
      have hcount : Realises [.count counter step] (Exec.stepCounter counter step : Exec σ Unit) :=
        realises_of_last rfl
      refine realises_test rfl ?_ realises_nil
      rw [bind_assoc]
      exact realises_append hx (realises_append hcount ih)

mutual

/-- **The steps of a statement carry out what running it comes to**, with any fuel. -/
theorem realises_stmt (fuel : Nat) : ∀ s : Stmt, Realises [.statement s] (s.exec fuel : Exec σ Unit)
  | .declaration type vars _ => realises_of_pure rfl (realises_declare type vars)
  | .assignment a => realises_assign a
  | .print _ _ => realises_of_last rfl
  | .input names span => realises_read names span
  | .conditional _ body rest _ =>
      realises_test rfl (realises_block fuel body) (realises_otherwise fuel rest)
  | .loop first _ _ _ body _ =>
      realises_of_pure rfl (realises_append (realises_assign first)
        (realises_repeatF (realises_block fuel body) fuel))

theorem realises_block (fuel : Nat) :
    ∀ b : Block, Realises [.statements b.body] (b.exec fuel : Exec σ Unit)
  | .mk body _ => realises_execAll fuel body

theorem realises_otherwise (fuel : Nat) :
    ∀ o : Otherwise, Realises [.otherwise o] (o.exec fuel : Exec σ Unit)
  | .nothing => realises_of_pure rfl realises_nil
  | .branch _ body rest =>
      realises_test rfl (realises_block fuel body) (realises_otherwise fuel rest)
  | .always body => realises_of_pure rfl (realises_block fuel body)

theorem realises_execAll (fuel : Nat) :
    ∀ ss : List Stmt, Realises [.statements ss] (execAll fuel ss : Exec σ Unit)
  | [] => realises_of_pure rfl realises_nil
  | s :: ss =>
      realises_of_pure rfl (realises_append (realises_stmt fuel s) (realises_execAll fuel ss))

end

/-! ### Programs and sessions -/

/-- What is to be done for a program. -/
def Program.tasks (p : Program) : List Task := [.statements p.body, .flush p.span]

theorem realises_program (fuel : Nat) (p : Program) :
    Realises p.tasks (p.exec fuel : Exec σ Unit) :=
  realises_append (realises_execAll fuel p.body) (realises_of_last rfl)

/-- A run of the program from the first machine passes through the second. -/
def Program.Passes (p : Program) (m m' : Machine σ) : Prop :=
  ∃ c, Config.Steps (.running p.tasks m) c ∧ c.machine = m'

/-- The machine that a run leaves, however it ended. -/
def machineOf {σ α : Type} : EStateM.Result Halt (Machine σ) α → Machine σ
  | .ok _ m | .error _ m => m

/-- **The machine that a program leaves is one its steps pass through**, however it ended. -/
theorem Program.passes_exec (fuel : Nat) (p : Program) (m : Machine σ) :
    p.Passes m (machineOf (p.exec fuel m)) := by
  have hp := realises_program fuel p m
  cases h : p.exec fuel m with
  | ok _ m' =>
      rw [h] at hp
      have hs := hp []
      rw [List.append_nil] at hs
      exact ⟨_, hs, rfl⟩
  | error e m' =>
      rw [h] at hp
      obtain ⟨c, hs, hc, -⟩ := hp []
      rw [List.append_nil] at hs
      exact ⟨c, hs, hc⟩

/-- Programs run one after the other from the first machine, each as long as it goes or until it is
given up, and pass through the second machine. -/
inductive Visits : Machine σ → List Program → Machine σ → Prop
  | here (m : Machine σ) (ps : List Program) : Visits m ps m
  | later {p : Program} {ps : List Program} {m m' m'' : Machine σ} : p.Passes m m' →
      Visits m' ps m'' → Visits m (p :: ps) m''

/-- The machine after all programs of a session, with the same fuel for each of them. -/
def Machine.session (fuel : Nat) : (m : Machine σ) → (sources : List String) → Machine σ
  | m, [] => m
  | m, source :: sources => session fuel (m.next fuel source).2 sources

theorem passes_next {fuel : Nat} {m : Machine σ} {source : String} {parsed : Parsed}
    (h : parseProgram source = .ok parsed) :
    parsed.program.Passes m (m.next fuel source).2 := by
  have hp := parsed.program.passes_exec fuel m
  have hnext : (m.next fuel source).2 = machineOf (parsed.program.exec fuel m) := by
    unfold Machine.next
    rw [h]
    simp only [EStateM.run]
    cases parsed.program.exec fuel m with
    | ok _ m' => rfl
    | error e m' => cases e <;> rfl
  rw [hnext]
  exact hp

/-- The machine after a session is one that the programs of the session pass through. -/
theorem visits_session (fuel : Nat) (m : Machine σ) (sources : List String) :
    ∃ ps, Visits m ps (m.session fuel sources) := by
  induction sources generalizing m with
  | nil => exact ⟨[], .here m []⟩
  | cons source sources ih =>
      obtain ⟨ps, hps⟩ := ih (m.next fuel source).2
      cases hparse : parseProgram source with
      | error e =>
          have hm : (m.next fuel source).2 = m := by simp only [Machine.next, hparse]
          rw [Machine.session]
          rw [hm] at hps ⊢
          exact ⟨ps, hps⟩
      | ok parsed => exact ⟨parsed.program :: ps, .later (passes_next hparse) hps⟩

end

end BisayaLang
