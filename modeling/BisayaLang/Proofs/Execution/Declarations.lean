/-
**The declarations of a session.**

One machine runs programs one after the other, and some of them stop early.  Here every variable that is
declared on the way is entered in a log, the latest first, and the log is compared with what the machine
holds.  The store has exactly the names in the log, in its values as in its types, each with the type it
was declared with last.  Every entry is either the first one of its name, and then the store has grown by
one variable, or there has been a warning about it, and that names the type of the entry before.

What declares nothing changes neither types nor names nor warnings.  Only one kind of task does declare
something, so that each step adds at most one entry, and everything here is kept by each step.

Main definitions:

* `BisayaLang.Declaration`, `BisayaLang.latest` — an entry of the log, and the latest one of a name;
* `BisayaLang.remarks` — the warnings that the declarations of a log call for;
* `BisayaLang.Logged`, `BisayaLang.Logged.Steps` — a state of a session with its log, and how it goes on;
* `BisayaLang.Accounts` — what a log says is what the machine holds.

Main results:

* `BisayaLang.Task.step_declaresNone` — all tasks but one kind declare nothing;
* `BisayaLang.Accounts.step` — one step keeps log and machine in agreement;
* `BisayaLang.declarations_accounted` — **log and machine agree throughout every session**.
-/

import Mathlib.Logic.Relation
import BisayaLang.Proofs.Execution.Lockstep

set_option relaxedAutoImplicit false
set_option autoImplicit false

namespace BisayaLang

/-! ### The log -/

/-- A declaration that was carried out. -/
structure Declaration where
  name : Name
  type : DataType

/-- The type that the latest declaration of a name gives it. -/
def latest (log : List Declaration) (x : String) : Option DataType :=
  (log.find? fun d => x == d.name.text).map Declaration.type

/-- The warning about a declaration, if there is one of its name before. -/
def Declaration.remark (d : Declaration) (before : List Declaration) : List Warning :=
  match latest before d.name.text with
  | some earlier => [.redeclaration d.name.text earlier d.type d.name.span]
  | none => []

/-- The warnings about the declarations of a log, in the order in which they are given. -/
def remarks : List Declaration → List Warning
  | [] => []
  | d :: before => remarks before ++ d.remark before

/-- The warning is about a variable that was declared again. -/
def Warning.isRedeclaration : Warning → Bool
  | .redeclaration .. => true
  | .unreachableCode _ => false

theorem latest_cons (d : Declaration) (log : List Declaration) (x : String) :
    latest (d :: log) x = if x == d.name.text then some d.type else latest log x := by
  unfold latest
  rw [List.find?_cons]
  cases x == d.name.text <;> rfl

/-- A name in the log stays there. -/
theorem latest_of_suffix {log log' : List Declaration} (h : log <:+ log') {x : String}
    (hx : (latest log x).isSome) : (latest log' x).isSome := by
  obtain ⟨new, rfl⟩ := h
  induction new with
  | nil => exact hx
  | cons d new ih =>
      rw [List.cons_append, latest_cons]
      split
      · rfl
      · exact ih

/-! ### The names of a store -/

namespace Store

variable {α : Type}

/-- Something new comes at the end, and otherwise the names stay. -/
theorem keys_put (name : String) (a : α) (entries : List (String × α)) :
    (put name a entries).map Prod.fst =
      if (entries.lookup name).isSome then entries.map Prod.fst
      else entries.map Prod.fst ++ [name] := by
  induction entries with
  | nil => rfl
  | cons e entries ih =>
      rw [put, List.lookup_cons]
      cases name == e.1 with
      | true => rfl
      | false =>
          simp only [Bool.false_eq_true, if_false, List.map_cons, ih]
          split <;> rfl

theorem isSome_lookup (name : String) (entries : List (String × α)) :
    (entries.lookup name).isSome ↔ name ∈ entries.map Prod.fst := by
  induction entries with
  | nil => simp
  | cons e entries ih =>
      rw [List.lookup_cons, List.map_cons, List.mem_cons]
      cases h : name == e.1 with
      | true => simp [eq_of_beq h]
      | false => simp [ih, beq_eq_false_iff_ne.1 h]

/-- Giving a value keeps the names. -/
theorem keys_set (s : Store) (name : String) (value : Value) :
    (s.set name value).values.map Prod.fst = s.values.map Prod.fst := by
  unfold set
  cases h : s.value? name with
  | none => rfl
  | some old =>
      have hsome : (s.values.lookup name).isSome := by
        rw [show s.values.lookup name = some old from h]
        rfl
      exact (keys_put name value s.values).trans (if_pos hsome)

theorem size_declare (s : Store) (name : String) (type : DataType) (value : Value) :
    (s.declare name type value).size = if (s.type? name).isSome then s.size else s.size + 1 := by
  have hkeys := congrArg List.length (keys_put name type s.types)
  rw [List.length_map] at hkeys
  unfold size type?
  refine hkeys.trans ?_
  split <;> simp

theorem types_set (s : Store) (name : String) (value : Value) :
    (s.set name value).types = s.types := by
  unfold set
  split <;> rfl

end Store

/-! ### Computations that declare nothing -/

section

variable {σ α β : Type}

/-- Nothing was declared between the two machines. -/
structure SameNames (m m' : Machine σ) : Prop where
  types : m'.store.types = m.store.types
  keys : m'.store.values.map Prod.fst = m.store.values.map Prod.fst
  warnings : m'.warnings = m.warnings

/-- The computation declares nothing, however it ends. -/
def DeclaresNone (x : Exec σ α) : Prop := ∀ m, SameNames m (machineOf (x m))

theorem SameNames.refl (m : Machine σ) : SameNames m m := ⟨rfl, rfl, rfl⟩

theorem SameNames.trans {m m' m'' : Machine σ} (h : SameNames m m') (h' : SameNames m' m'') :
    SameNames m m'' :=
  ⟨h'.types.trans h.types, h'.keys.trans h.keys, h'.warnings.trans h.warnings⟩

theorem declaresNone_pure (a : α) : DeclaresNone (pure a : Exec σ α) := fun m => .refl m

theorem declaresNone_bind {x : Exec σ α} {f : α → Exec σ β} (h : DeclaresNone x)
    (hf : ∀ a, DeclaresNone (f a)) : DeclaresNone (x >>= f) := by
  intro m
  have hm := h m
  show SameNames m (machineOf (EStateM.bind x f m))
  unfold EStateM.bind
  cases hx : x m with
  | ok a m' =>
      rw [hx] at hm
      exact hm.trans (hf a m')
  | error e m' =>
      rw [hx] at hm
      exact hm

theorem declaresNone_fail (fault : RuntimeFault) (span : Span) :
    DeclaresNone (Exec.fail fault span : Exec σ α) := fun m => .refl m

theorem declaresNone_ofEval (x : Eval α) : DeclaresNone (Exec.ofEval x : Exec σ α) := by
  intro m
  cases x <;> exact .refl m

theorem declaresNone_eval (f : Store → Eval α) : DeclaresNone (Exec.eval f : Exec σ α) :=
  fun m => declaresNone_ofEval (f m.store) m

theorem declaresNone_set (name : String) (value : Value) :
    DeclaresNone (Exec.modifyStore (fun s => s.set name value) : Exec σ Unit) :=
  fun m => ⟨m.store.types_set name value, m.store.keys_set name value, rfl⟩

theorem declaresNone_useSink (span : Span) (act : σ → Except IoKind Unit × σ) :
    DeclaresNone (Exec.useSink span act) := by
  rintro ⟨store, input, sink, warnings⟩
  unfold Exec.useSink
  simp only
  rcases act sink with ⟨kind | _, sink'⟩
  · exact ⟨rfl, rfl, rfl⟩
  · exact ⟨rfl, rfl, rfl⟩

theorem declaresNone_assignFirst (innermost : Name) (e : Expr) :
    DeclaresNone (Exec.assignFirst innermost e : Exec σ _) :=
  declaresNone_bind (declaresNone_eval _) fun _ => declaresNone_bind (declaresNone_eval _) fun _ =>
    declaresNone_bind (declaresNone_set _ _) fun _ => declaresNone_pure _

theorem declaresNone_passOnOne (value : Value) (inner : Name) (innerType : DataType) (outer : Name) :
    DeclaresNone (Exec.passOnOne value inner innerType outer : Exec σ _) := by
  refine declaresNone_bind (declaresNone_eval _) fun v => ?_
  split
  · exact declaresNone_fail _ _
  · exact declaresNone_bind (declaresNone_set _ _) fun _ => declaresNone_pure _

theorem declaresNone_printItems [Sink σ] (span : Span) (line : String) (items : List PrintItem) :
    DeclaresNone (Exec.printItems span line items : Exec σ Unit) := by
  induction items generalizing line with
  | nil =>
      unfold Exec.printItems
      split
      · exact declaresNone_pure _
      · exact declaresNone_useSink _ _
  | cons item items ih =>
      cases item with
      | text content s => exact ih _
      | var name => exact declaresNone_bind (declaresNone_eval _) fun _ => ih _
      | expr e => exact declaresNone_bind (declaresNone_eval _) fun _ => ih _
      | lineBreak s => exact declaresNone_bind (declaresNone_useSink _ _) fun _ => ih _

theorem declaresNone_typesOf (names : List Name) : DeclaresNone (Exec.typesOf names : Exec σ _) := by
  induction names with
  | nil => exact declaresNone_pure _
  | cons name names ih =>
      exact declaresNone_bind (declaresNone_eval _) fun _ => declaresNone_bind ih fun _ =>
        declaresNone_pure _

theorem declaresNone_readFields (span : Span) : DeclaresNone (Exec.readFields span : Exec σ _) := by
  intro m
  rw [readFields_eq]
  unfold Exec.fieldsOf
  split
  · exact ⟨rfl, rfl, rfl⟩
  · cases Utf8.decode? (Input.takeLine m.input).1 <;> exact ⟨rfl, rfl, rfl⟩

theorem declaresNone_readTyped (names : List Name) (span : Span) :
    DeclaresNone (Exec.readTyped names span : Exec σ _) := by
  refine declaresNone_bind (declaresNone_typesOf names) fun typed => ?_
  refine declaresNone_bind (declaresNone_readFields span) fun fields => ?_
  split
  · exact declaresNone_fail _ _
  · exact declaresNone_pure _

theorem declaresNone_takeField (name : Name) (type : DataType) (field : List Char) :
    DeclaresNone (Exec.takeField name type field : Exec σ Unit) :=
  declaresNone_bind (declaresNone_ofEval _) fun _ => declaresNone_set _ _

theorem declaresNone_stepCounter (counter : Name) (step : Step) :
    DeclaresNone (Exec.stepCounter counter step : Exec σ Unit) := by
  refine declaresNone_bind (declaresNone_eval _) fun v => ?_
  cases v.value with
  | number x => exact declaresNone_set _ _
  | truth b => exact declaresNone_fail _ _
  | text t => exact declaresNone_fail _ _

/-- The first value of a variable is found without a change of the machine. -/
theorem firstValue_cases (type : DataType) (d : Declared) (m : Machine σ) :
    (∃ value, Exec.firstValue type d m = .ok value m) ∨ ∃ h, Exec.firstValue type d m = .error h m := by
  obtain ⟨name, _ | e⟩ := d
  · exact .inl ⟨_, rfl⟩
  · show (∃ value, Exec.ofEval (e.valueFor m.store type) m = .ok value m) ∨
      ∃ h, Exec.ofEval (e.valueFor m.store type) m = .error h m
    cases e.valueFor m.store type with
    | ok value => exact .inl ⟨value, rfl⟩
    | error err => exact .inr ⟨_, rfl⟩

/-! ### Tasks -/

/-- What a task declares in its next step, if that does not fail. -/
def Task.declares : Task → List Declaration
  | .declare type (d :: _) => [⟨d.name, type⟩]
  | _ => []

variable [Sink σ]

/-- **All tasks but one kind declare nothing.** -/
theorem Task.step_declaresNone {t : Task} (ht : t.declares = []) :
    DeclaresNone (t.step : Exec σ (List Task)) := by
  cases t with
  | statement s =>
      cases s with
      | declaration type vars span => exact declaresNone_pure _
      | assignment a =>
          simp only [Task.step]
          cases a.targets.reverse with
          | nil => exact declaresNone_pure _
          | cons innermost outers =>
              exact declaresNone_bind (declaresNone_assignFirst _ _) fun _ => declaresNone_pure _
      | print items span =>
          exact declaresNone_bind (declaresNone_printItems span "" items) fun _ => declaresNone_pure _
      | input names span =>
          exact declaresNone_bind (declaresNone_readTyped names span) fun _ => declaresNone_pure _
      | conditional test body rest span =>
          exact declaresNone_bind (declaresNone_eval _) fun _ => declaresNone_pure _
      | loop first test counter step body span => exact declaresNone_pure _
  | statements ss => cases ss <;> exact declaresNone_pure _
  | otherwise o =>
      cases o with
      | nothing => exact declaresNone_pure _
      | branch test body rest =>
          exact declaresNone_bind (declaresNone_eval _) fun _ => declaresNone_pure _
      | always body => exact declaresNone_pure _
  | declare type vars =>
      cases vars with
      | nil => exact declaresNone_pure _
      | cons d vars => cases ht
  | passOn value inner innerType outers =>
      cases outers with
      | nil => exact declaresNone_pure _
      | cons outer outers =>
          exact declaresNone_bind (declaresNone_passOnOne _ _ _ _) fun _ => declaresNone_pure _
  | takeFields typed fields =>
      rcases typed with _ | ⟨⟨name, type⟩, typed⟩
      · exact declaresNone_pure _
      · cases fields with
        | nil => exact declaresNone_pure _
        | cons field fields =>
            exact declaresNone_bind (declaresNone_takeField _ _ _) fun _ => declaresNone_pure _
  | repetition test counter step body =>
      exact declaresNone_bind (declaresNone_eval _) fun _ => declaresNone_pure _
  | count counter step =>
      exact declaresNone_bind (declaresNone_stepCounter _ _) fun _ => declaresNone_pure _
  | flush span => exact declaresNone_bind (declaresNone_useSink _ _) fun _ => declaresNone_pure _

/-- The machine after a variable was declared. -/
def Machine.declare (m : Machine σ) (type : DataType) (d : Declared) (value : Value) : Machine σ :=
  { m with
    store := m.store.declare d.name.text type value
    warnings := match m.store.type? d.name.text with
      | some earlier => m.warnings.push (.redeclaration d.name.text earlier type d.name.span)
      | none => m.warnings }

omit [Sink σ] in
theorem Machine.warnings_declare (m : Machine σ) (type : DataType) (d : Declared) (value : Value) :
    (m.declare type d value).warnings.toList = m.warnings.toList ++
      match m.store.type? d.name.text with
      | some earlier => [.redeclaration d.name.text earlier type d.name.span]
      | none => [] := by
  unfold Machine.declare
  cases m.store.type? d.name.text <;> simp

omit [Sink σ] in
theorem declareOne_cases (type : DataType) (d : Declared) (m : Machine σ) :
    (∃ value, Exec.declareOne type d m = .ok () (m.declare type d value)) ∨
      ∃ h, Exec.declareOne type d m = .error h m := by
  unfold Exec.declareOne Machine.declare
  show (∃ value, EStateM.bind (Exec.firstValue type d) _ m = .ok () _) ∨
    ∃ h, EStateM.bind (Exec.firstValue type d) _ m = .error h m
  unfold EStateM.bind
  rcases firstValue_cases type d m with ⟨value, hvalue⟩ | ⟨h, hvalue⟩
  · rw [hvalue]
    refine .inl ⟨value, ?_⟩
    show (match m.store.type? d.name.text with | some _ => _ | none => _ : Exec σ Unit) _ = _
    cases m.store.type? d.name.text <;> rfl
  · rw [hvalue]
    exact .inr ⟨h, rfl⟩

/-- The other kind declares one variable, or fails before it does. -/
theorem step_declare_cases (type : DataType) (d : Declared) (vars : List Declared) (m : Machine σ) :
    (∃ value, Task.step (.declare type (d :: vars)) m =
      .ok [.declare type vars] (m.declare type d value)) ∨
    ∃ h, Task.step (.declare type (d :: vars)) m = .error h m := by
  show (∃ value, EStateM.bind (Exec.declareOne type d) _ m = _) ∨
    ∃ h, EStateM.bind (Exec.declareOne type d) _ m = _
  unfold EStateM.bind
  rcases declareOne_cases type d m with ⟨value, hone⟩ | ⟨h, hone⟩
  · rw [hone]
    exact .inl ⟨value, rfl⟩
  · rw [hone]
    exact .inr ⟨h, rfl⟩

/-! ### Log and machine -/

/-- What the log says is what the machine holds. -/
structure Accounts (log : List Declaration) (m : Machine σ) : Prop where
  /-- the values and the types have the same names -/
  keys : m.store.values.map Prod.fst = m.store.types.map Prod.fst
  nodup : (m.store.types.map Prod.fst).Nodup
  latest : ∀ x, m.store.type? x = latest log x
  /-- every declaration has made the store larger, or there is a warning about it -/
  count : log.length = m.store.size + m.warnings.toList.countP Warning.isRedeclaration
  remarks : m.warnings.toList = remarks log

namespace Accounts

variable {log : List Declaration} {m m' : Machine σ}

omit [Sink σ] in
theorem start (input : List UInt8) (sink : σ) : Accounts [] (Machine.start input sink) :=
  ⟨rfl, .nil, fun _ => rfl, rfl, rfl⟩

omit [Sink σ] in
theorem of_sameNames (h : Accounts log m) (hm : SameNames m m') : Accounts log m' where
  keys := by rw [hm.keys, hm.types, h.keys]
  nodup := by rw [hm.types]; exact h.nodup
  latest := by unfold Store.type?; rw [hm.types]; exact h.latest
  count := by unfold Store.size; rw [hm.types, hm.warnings]; exact h.count
  remarks := by rw [hm.warnings]; exact h.remarks

omit [Sink σ] in
/-- One more variable is declared.  Whether its name is new is decided alike by the values, by the types
and by the log. -/
theorem declare (h : Accounts log m) (type : DataType) (d : Declared) (value : Value) :
    Accounts (⟨d.name, type⟩ :: log) (m.declare type d value) := by
  have hvalues : (m.store.values.lookup d.name.text).isSome =
      (m.store.types.lookup d.name.text).isSome := by
    rw [Bool.eq_iff_iff, Store.isSome_lookup, Store.isSome_lookup, h.keys]
  have hkeys : (m.declare type d value).store.types.map Prod.fst = _ :=
    Store.keys_put d.name.text type m.store.types
  have hsize : (m.declare type d value).store.size = _ :=
    Store.size_declare m.store d.name.text type value
  have hcount := h.count
  refine ⟨?_, ?_, fun x => ?_, ?_, ?_⟩
  · rw [hkeys]
    show (Store.put d.name.text value m.store.values).map Prod.fst = _
    rw [Store.keys_put, hvalues, h.keys]
  · rw [hkeys]
    split
    · exact h.nodup
    · rename_i hnew
      rw [Store.isSome_lookup] at hnew
      exact List.nodup_append.2 ⟨h.nodup, by simp, fun x hx y hy hxy =>
        hnew (List.mem_singleton.1 hy ▸ hxy ▸ hx)⟩
  · rw [latest_cons, ← h.latest x]
    exact Store.type?_declare ..
  · rw [hsize, Machine.warnings_declare, List.countP_append, List.length_cons, hcount]
    generalize List.countP Warning.isRedeclaration m.warnings.toList = warned
    cases m.store.type? d.name.text with
    | none =>
        show m.store.size + warned + 1 = m.store.size + 1 + (warned + 0)
        omega
    | some earlier =>
        show m.store.size + warned + 1 = m.store.size + (warned + 1)
        omega
  · rw [Machine.warnings_declare, h.remarks, BisayaLang.remarks, Declaration.remark, ← h.latest]

/-- **One step keeps log and machine in agreement.** -/
theorem step (h : Accounts log m) (t : Task) :
    (∀ new m', t.step m = .ok new m' → Accounts (t.declares ++ log) m') ∧
    ∀ e m', t.step m = .error e m' → Accounts log m' := by
  by_cases ht : t.declares = []
  · have hm := t.step_declaresNone ht m
    rw [ht]
    constructor
    · intro new m' hstep
      rw [hstep] at hm
      exact h.of_sameNames hm
    · intro e m' hstep
      rw [hstep] at hm
      exact h.of_sameNames hm
  · obtain ⟨type, d, vars, rfl⟩ : ∃ type d vars, t = .declare type (d :: vars) := by
      unfold Task.declares at ht
      split at ht
      · exact ⟨_, _, _, rfl⟩
      · exact absurd rfl ht
    rcases step_declare_cases type d vars m with ⟨value, hdone⟩ | ⟨e, hfail⟩
    · rw [hdone]
      constructor
      · rintro _ _ ⟨⟩
        exact h.declare type d value
      · rintro _ _ ⟨⟩
    · rw [hfail]
      constructor
      · rintro _ _ ⟨⟩
      · rintro _ _ ⟨⟩
        exact h

end Accounts

/-! ### Sessions -/

/-- A state of a session, and the log of the declarations so far. -/
structure Logged (σ : Type) where
  log : List Declaration
  state : Config σ

namespace Logged

/-- The machine of the state. -/
def machine (a : Logged σ) : Machine σ := a.state.machine

/-- A session before its first program. -/
def start (input : List UInt8) (sink : σ) : Logged σ := ⟨[], .running [] (.start input sink)⟩

/-- A session goes on with a step of the program, or with another program.  The one before may have come
to its end, or stopped, or may be given up. -/
inductive Step : Logged σ → Logged σ → Prop
  | proceed {log : List Declaration} {t : Task} {ts new : List Task} {m m' : Machine σ} :
      t.step m = .ok new m' →
      Step ⟨log, .running (t :: ts) m⟩ ⟨t.declares ++ log, .running (new ++ ts) m'⟩
  | halt {log : List Declaration} {t : Task} {ts : List Task} {h : Halt} {m m' : Machine σ} :
      t.step m = .error h m' → Step ⟨log, .running (t :: ts) m⟩ ⟨log, .stopped h m'⟩
  | next {log : List Declaration} {c : Config σ} (p : Program) :
      Step ⟨log, c⟩ ⟨log, .running p.tasks c.machine⟩

/-- A session goes on for a while. -/
abbrev Steps : Logged σ → Logged σ → Prop := Relation.ReflTransGen Step

theorem Step.accounts {a b : Logged σ} (h : Step a b) (ha : Accounts a.log a.machine) :
    Accounts b.log b.machine := by
  cases h with
  | proceed hstep => exact (ha.step _).1 _ _ hstep
  | halt hstep => exact (ha.step _).2 _ _ hstep
  | next p => exact ha

theorem Steps.accounts {a b : Logged σ} (h : Steps a b) (ha : Accounts a.log a.machine) :
    Accounts b.log b.machine := by
  induction h with
  | refl => exact ha
  | tail _ hstep ih => exact hstep.accounts ih

/-- No entry is ever taken out of the log. -/
theorem Steps.suffix {a b : Logged σ} (h : Steps a b) : a.log <:+ b.log := by
  induction h with
  | refl => exact List.suffix_refl _
  | tail _ hstep ih =>
      cases hstep with
      | proceed _ => exact ih.trans (List.suffix_append _ _)
      | halt _ => exact ih
      | next p => exact ih

/-- What a program passes through, a session can. -/
theorem exists_of_steps {c c' : Config σ} (h : Config.Steps c c') (log : List Declaration) :
    ∃ log', Steps ⟨log, c⟩ ⟨log', c'⟩ := by
  induction h generalizing log with
  | refl c => exact ⟨log, .refl⟩
  | head hstep _ ih =>
      cases hstep with
      | proceed hs =>
          obtain ⟨log', hlog⟩ := ih (_ ++ log)
          exact ⟨log', .head (.proceed hs) hlog⟩
      | halt hs =>
          obtain ⟨log', hlog⟩ := ih log
          exact ⟨log', .head (.halt hs) hlog⟩

theorem exists_of_visits {ps : List Program} {m m' : Machine σ} (h : Visits m ps m') (a : Logged σ)
    (ha : a.machine = m) : ∃ b, Steps a b ∧ b.machine = m' := by
  induction h generalizing a with
  | here m ps => exact ⟨a, .refl, ha⟩
  | @later p ps m m' m'' hpasses _ ih =>
      obtain ⟨c, hsteps, hc⟩ := hpasses
      obtain ⟨log, hlog⟩ := exists_of_steps hsteps a.log
      obtain ⟨b, hb, hm⟩ := ih ⟨log, c⟩ hc
      have hnext : Step a ⟨a.log, .running p.tasks m⟩ := ha ▸ .next p
      exact ⟨b, (hlog.head hnext).trans hb, hm⟩

end Logged

/-- **Log and machine agree throughout every session** that starts with an empty store, whether its
programs fail or not: values and types have the same names, there are as many declarations as variables
and warnings about a name declared again, and each of the warnings names the type of the declaration
before.  A name that is declared stays declared.  Every machine that running sources one after the other
comes to is one that such a session passes through. -/
theorem declarations_accounted (input : List UInt8) (sink : σ) :
    (∀ a, Logged.Steps (.start input sink) a → Accounts a.log a.machine ∧
      ∀ b, Logged.Steps a b → ∀ x, a.machine.store.isDeclared x → b.machine.store.isDeclared x) ∧
    ∀ fuel sources, ∃ a, Logged.Steps (.start input sink) a ∧
      a.machine = (Machine.start input sink).session fuel sources := by
  refine ⟨fun a ha => ?_, fun fuel sources => ?_⟩
  · have hacc := ha.accounts (.start input sink)
    refine ⟨hacc, fun b hb x hx => ?_⟩
    have hacc' := hb.accounts hacc
    unfold Store.isDeclared at hx ⊢
    rw [hacc.latest] at hx
    rw [hacc'.latest]
    exact latest_of_suffix hb.suffix hx
  · obtain ⟨ps, hvisits⟩ := visits_session fuel (Machine.start input sink) sources
    exact Logged.exists_of_visits hvisits (.start input sink) rfl

end

/-- A program that declares `a` with another type than before, and fails at the first value of `c`. -/
def recast : Program :=
  let a : Name := ⟨"a", .point 0⟩
  ⟨[.declaration .letra [⟨a, some (.text "x" (.point 1))⟩, ⟨⟨"b", .point 2⟩, some (.var a)⟩] (.point 0),
    .declaration .tinuod [⟨⟨"a", .point 3⟩, none⟩, ⟨⟨"c", .point 4⟩, some (.var ⟨"d", .point 5⟩)⟩]
      (.point 0)], .point 0⟩

/-- Where it fails. -/
def recastEnd : Logged Buffer :=
  ⟨[⟨⟨"a", .point 3⟩, .tinuod⟩, ⟨⟨"b", .point 2⟩, .letra⟩, ⟨⟨"a", .point 0⟩, .letra⟩],
    .stopped (.error ⟨.undefinedVariable "d", .point 5⟩)
      ⟨⟨[("a", .truth false), ("b", .text "x")], [("a", .tinuod), ("b", .letra)]⟩, [], .unlimited,
        #[.redeclaration "a" .letra .tinuod (.point 3)]⟩⟩

theorem declarations_accounted_recast :
    Logged.Steps (.start [] .unlimited) recastEnd ∧ Accounts recastEnd.log recastEnd.machine := by
  have hsteps : Logged.Steps (.start [] .unlimited) recastEnd := by
    refine .head (.next recast) ?_
    iterate 8 refine .head (.proceed (by rfl)) ?_
    exact .single (.halt (by rfl))
  exact ⟨hsteps, ((declarations_accounted [] Buffer.unlimited).1 recastEnd hsteps).1⟩

end BisayaLang
