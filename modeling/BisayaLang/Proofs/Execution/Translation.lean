/-
**Running with other names.**

A program is run on one machine, and the same program with other names on another.  As long as the
second machine has under the new names what the first one has under the old ones, both do the same: they
evaluate to the same values, take the same branches, write and read the same, and stop with the same
errors, in which only the names differ.

What the machines have in common beyond that is left open.  It is given as a relation, and the relation
has to be kept by the few things that a program can do to a machine: declaring a variable, setting one,
giving a warning, taking a line off the input, and calling the sink.  These concern only names of the
program, so that nothing needs to be known about any others.

Main definitions:

* `BisayaLang.RuntimeError.rename`, `BisayaLang.Warning.rename` — errors and warnings with other names;
* `BisayaLang.Store.Renamed` — a store has under the new names what another has under the old ones;
* `BisayaLang.Translation` — a relation between machines that all a program can do keeps;
* `BisayaLang.Translates` — a computation comes to what another comes to, with other names.

Main results:

* `BisayaLang.Expr.eval_rename` — evaluation of an expression with other names;
* `BisayaLang.translates_stmt` — one statement;
* `BisayaLang.translates_program` — **a program with other names does the same**.
-/

import BisayaLang.Proofs.Execution.Lockstep
import BisayaLang.Proofs.Tree.Names

set_option relaxedAutoImplicit false
set_option autoImplicit false

namespace BisayaLang

/-! ### Errors and warnings with other names -/

section

variable (r : String → String)

/-- The fault with other names.  Texts and values in it are no names. -/
def RuntimeFault.rename : RuntimeFault → RuntimeFault
  | .undefinedVariable name => .undefinedVariable (r name)
  | .typeMismatch outer outerType inner innerType =>
      .typeMismatch (r outer) outerType (r inner) innerType
  | .expectedText name found => .expectedText (r name) found
  | .invalidInputFormat name type value => .invalidInputFormat (r name) type value
  | .nonNumericCounter name found => .nonNumericCounter (r name) found
  | fault => fault

/-- The error with other names. -/
def RuntimeError.rename (e : RuntimeError) : RuntimeError := ⟨e.fault.rename r, e.span⟩

/-- The halt with other names. -/
def Halt.rename : Halt → Halt
  | .error e => .error (e.rename r)
  | .outOfFuel => .outOfFuel

/-- The warning with other names. -/
def Warning.rename : Warning → Warning
  | .redeclaration name previous current span => .redeclaration (r name) previous current span
  | .unreachableCode span => .unreachableCode span

/-- The result of an evaluation, where an error has other names. -/
def renameError {α : Type} : Eval α → Eval α
  | .ok a => .ok a
  | .error e => .error (e.rename r)

end

theorem Warning.rename_id (w : Warning) : w.rename id = w := by
  cases w <;> rfl

theorem Halt.rename_id (h : Halt) : h.rename id = h := by
  cases h with
  | outOfFuel => rfl
  | error e =>
      obtain ⟨fault, span⟩ := e
      cases fault <;> rfl

/-! ### Evaluation -/

section

variable {r : String → String} {α β : Type}

theorem renameError_bind (x : Eval α) (f : α → Eval β) :
    renameError r (x >>= f) = renameError r x >>= fun a => renameError r (f a) := by
  cases x <;> rfl

theorem renameError_pure (a : α) : renameError r (pure a) = pure a := rfl

theorem renameError_map (f : α → β) (x : Eval α) :
    renameError r (f <$> x) = f <$> renameError r x := by
  cases x <;> rfl

/-! These errors hold no names. -/

theorem renameError_asNumber (v : Value) (span : Span) :
    renameError r (v.asNumber span) = v.asNumber span := by
  unfold Value.asNumber
  cases v.toNumber? <;> rfl

theorem renameError_textNumber (content : String) (span : Span) :
    renameError r (textNumber content span) = textNumber content span := by
  unfold textNumber
  cases Value.ofText? content <;> rfl

theorem renameError_textTruth (content : String) (span : Span) :
    renameError r (textTruth content span) = textTruth content span := by
  unfold textTruth
  split
  · rfl
  · split <;> rfl

theorem renameError_arithmetic (op : Arithmetic) (span : Span) (x y : Float) :
    renameError r (op.apply span x y) = op.apply span x y := by
  have hdiv : ∀ (op : Arithmetic) (z : Float),
      renameError r (if y == 0.0 then .error ⟨.divisionByZero op, span⟩ else .ok z) =
        if y == 0.0 then .error ⟨.divisionByZero op, span⟩ else .ok z := by
    intro op z
    split <;> rfl
  cases op with
  | div => exact hdiv _ _
  | mod => exact hdiv _ _
  | _ => rfl

theorem renameError_comparison (op : Comparison) (span : Span) (a b : Value) :
    renameError r (op.apply span a b) = op.apply span a b := by
  unfold Comparison.apply
  split
  · cases op <;> rfl
  · rfl

/-- Of the names for which `N` holds, the second store has under the new one what the first has under the
old one. -/
structure Store.Renamed (r : String → String) (N : String → Prop) (s t : Store) : Prop where
  type : ∀ {x}, N x → t.type? (r x) = s.type? x
  value : ∀ {x}, N x → t.value? (r x) = s.value? x

variable {N : String → Prop} {s t : Store}

theorem Store.Renamed.find (h : s.Renamed r N t) {name : Name} (hn : N name.text) :
    t.find (name.rename r) = renameError r (s.find name) := by
  unfold Store.find
  have hget : t.get? (name.rename r).text = s.get? name.text := by
    rw [Store.get?_eq, Store.get?_eq, Name.text_rename, h.type hn, h.value hn]
  rw [hget]
  cases s.get? name.text <;> rfl

/-- **Evaluation of an expression with other names** gives the same number, truth value and value, or the
same error with other names. -/
theorem Expr.eval_rename (h : s.Renamed r N t) {e : Expr} (he : ∀ x ∈ e.names, N x) :
    (e.rename r).evalNumber t = renameError r (e.evalNumber s) ∧
    (e.rename r).evalTruth t = renameError r (e.evalTruth s) ∧
    (e.rename r).evalValue t = renameError r (e.evalValue s) := by
  induction e with
  | var name =>
      have hfind := h.find (he _ (.head _))
      simp only [Expr.rename, Expr.evalNumber, Expr.evalTruth, Expr.evalValue, hfind,
        Name.span_rename, renameError_bind, renameError_asNumber, renameError_pure, and_self]
  | number value lexeme span => exact ⟨rfl, rfl, rfl⟩
  | bool value span => exact ⟨rfl, rfl, rfl⟩
  | text content span =>
      exact ⟨(renameError_textNumber content span).symm, (renameError_textTruth content span).symm, rfl⟩
  | group e span ih => exact ih he
  | unary op e span ih =>
      obtain ⟨hnumber, htruth, -⟩ := ih he
      cases op with
      | minus =>
          simp only [Expr.rename, Expr.evalNumber, Expr.evalTruth, Expr.evalValue, hnumber,
            renameError_bind, renameError_pure, and_self]
      | dili =>
          simp only [Expr.rename, Expr.evalNumber, Expr.evalTruth, Expr.evalValue, htruth,
            renameError_bind, renameError_pure, and_self]
  | binary op left right span ihl ihr =>
      obtain ⟨hl, hr⟩ := List.forall_mem_append.1 he
      obtain ⟨hnumber, htruth, hvalue⟩ := ihl hl
      obtain ⟨hnumber', htruth', hvalue'⟩ := ihr hr
      cases op with
      | arithmetic op =>
          simp only [Expr.rename, Expr.evalNumber, Expr.evalTruth, Expr.evalValue, hnumber, hnumber',
            renameError_bind, renameError_arithmetic, renameError_pure, and_self]
      | comparison op =>
          simp only [Expr.rename, Expr.evalNumber, Expr.evalTruth, Expr.evalValue, hvalue, hvalue',
            renameError_bind, renameError_comparison, renameError_pure, and_self]
      | connective op =>
          simp only [Expr.rename, Expr.evalNumber, Expr.evalTruth, Expr.evalValue, htruth, htruth',
            renameError_bind, renameError_pure, and_self]

theorem Expr.evalText_rename (h : s.Renamed r N t) {e : Expr} (he : ∀ x ∈ e.names, N x) :
    (e.rename r).evalText t = renameError r (e.evalText s) := by
  induction e with
  | var name =>
      rw [Expr.rename, Expr.evalText, Expr.evalText, h.find (he _ (.head _)), renameError_bind]
      congr
      funext v
      cases v.value <;> rfl
  | group e span ih => exact ih he
  | unary op e span _ => rfl
  | binary op left right span _ _ => rfl
  | _ => rfl

theorem Expr.display_rename (h : s.Renamed r N t) {e : Expr} (he : ∀ x ∈ e.names, N x) :
    (e.rename r).display t = renameError r (e.display s) := by
  have hother : ∀ {e : Expr}, (∀ x ∈ e.names, N x) →
      (do return (← (e.rename r).evalValue t).display : Eval String) =
        renameError r (do return (← e.evalValue s).display) := by
    intro e he
    rw [(Expr.eval_rename h he).2.2, renameError_bind]
    rfl
  induction e with
  | var name =>
      rw [Expr.rename, Expr.display, Expr.display, h.find (he _ (.head _)), renameError_bind]
      rfl
  | group e span ih => exact ih he
  | unary op e span _ => exact hother he
  | binary op left right span _ _ => exact hother he
  | number value lexeme span => rfl
  | bool value span => rfl
  | text content span => rfl

theorem Expr.valueFor_rename (h : s.Renamed r N t) {e : Expr} (he : ∀ x ∈ e.names, N x)
    (type : DataType) : (e.rename r).valueFor t type = renameError r (e.valueFor s type) := by
  obtain ⟨hnumber, htruth, -⟩ := Expr.eval_rename h he
  cases type with
  | numero => rw [Expr.valueFor, Expr.valueFor, hnumber, renameError_map]
  | tipik => rw [Expr.valueFor, Expr.valueFor, hnumber, renameError_map]
  | tinuod => rw [Expr.valueFor, Expr.valueFor, htruth, renameError_map]
  | letra => rw [Expr.valueFor, Expr.valueFor, Expr.evalText_rename h he, renameError_map]

theorem convert_rename (name : Name) (type : DataType) (field : List Char) :
    Input.convert (name.rename r) type field = renameError r (Input.convert name type field) := by
  cases type with
  | numero =>
      simp only [Input.convert]
      cases Number.readInt? field <;> rfl
  | tipik =>
      simp only [Input.convert]
      cases Number.readFloat? field <;> rfl
  | tinuod =>
      simp only [Input.convert]
      split
      · rfl
      · split <;> rfl
  | letra => rfl

end

/-! ### Computations -/

section

variable {σ τ α β γ δ : Type}

/-- The second result is the first with other names, and the machines are related.  What the two give is
related by `V`. -/
inductive Translated (r : String → String) (T : Machine σ → Machine τ → Prop) (V : α → β → Prop) :
    EStateM.Result Halt (Machine σ) α → EStateM.Result Halt (Machine τ) β → Prop
  | ok {a : α} {b : β} {m : Machine σ} {n : Machine τ} : V a b → T m n →
      Translated r T V (.ok a m) (.ok b n)
  | error {h : Halt} {m : Machine σ} {n : Machine τ} : T m n →
      Translated r T V (.error h m) (.error (h.rename r) n)

/-- On machines that are related, the second computation comes to what the first comes to, with other
names. -/
def Translates (r : String → String) (T : Machine σ → Machine τ → Prop) (V : α → β → Prop)
    (x : Exec σ α) (y : Exec τ β) : Prop :=
  ∀ m n, T m n → Translated r T V (x m) (y n)

/-- On machines that are related, the sinks give the same answer to the calls, and behind them the
machines are still related. -/
def AnswerAlike (T : Machine σ → Machine τ → Prop) (call : σ → Except IoKind α × σ)
    (call' : τ → Except IoKind α × τ) : Prop :=
  ∀ {m n}, T m n → (call m.sink).1 = (call' n.sink).1 ∧
    T { m with sink := (call m.sink).2 } { n with sink := (call' n.sink).2 }

/-- What a program with names for which `N` holds can do keeps the machines related. -/
structure Translation [Sink σ] [Sink τ] (r : String → String) (N : String → Prop)
    (T : Machine σ → Machine τ → Prop) : Prop where
  store : ∀ {m n}, T m n → m.store.Renamed r N n.store
  declare : ∀ {m n}, T m n → ∀ {x}, N x → ∀ type value,
    T { m with store := m.store.declare x type value }
      { n with store := n.store.declare (r x) type value }
  set : ∀ {m n}, T m n → ∀ {x}, N x → ∀ value,
    T { m with store := m.store.set x value } { n with store := n.store.set (r x) value }
  warn : ∀ {m n}, T m n → ∀ w : Warning,
    T { m with warnings := m.warnings.push w } { n with warnings := n.warnings.push (w.rename r) }
  input : ∀ {m n}, T m n → m.input = n.input
  read : ∀ {m n}, T m n → ∀ input, T { m with input } { n with input }
  write : ∀ bytes, AnswerAlike T (Sink.write bytes) (Sink.write bytes)
  flush : AnswerAlike T Sink.flush Sink.flush

variable {r : String → String} {N : String → Prop} {T : Machine σ → Machine τ → Prop}
  {V : α → β → Prop} {W : γ → δ → Prop}

theorem translates_pure {a : α} {b : β} (h : V a b) : Translates r T V (pure a) (pure b) :=
  fun _ _ hT => .ok h hT

theorem translates_bind {x : Exec σ α} {y : Exec τ β} {f : α → Exec σ γ} {f' : β → Exec τ δ}
    (h : Translates r T V x y) (hf : ∀ a b, V a b → Translates r T W (f a) (f' b)) :
    Translates r T W (x >>= f) (y >>= f') := by
  intro m n hmn
  have hxy := h m n hmn
  show Translated r T W (EStateM.bind x f m) (EStateM.bind y f' n)
  unfold EStateM.bind
  generalize x m = end₁ at hxy ⊢
  generalize y n = end₂ at hxy ⊢
  cases hxy with
  | ok hV hT => exact hf _ _ hV _ _ hT
  | error hT => exact .error hT

/-- Both go on with the same value. -/
theorem translates_then {x : Exec σ α} {y : Exec τ α} {f : α → Exec σ γ} {f' : α → Exec τ δ}
    (h : Translates r T Eq x y) (hf : ∀ a, Translates r T W (f a) (f' a)) :
    Translates r T W (x >>= f) (y >>= f') := by
  refine translates_bind h ?_
  rintro a _ rfl
  exact hf a

theorem translates_fail {fault fault' : RuntimeFault} (hf : fault' = fault.rename r) (span : Span) :
    Translates r T V (Exec.fail fault span) (Exec.fail fault' span) := by
  subst hf
  exact fun _ _ h => .error h

theorem translates_ofEval {x y : Eval α} (h : y = renameError r x) :
    Translates r T Eq (Exec.ofEval x) (Exec.ofEval y) := by
  subst h
  intro m n hmn
  cases x with
  | ok a => exact .ok rfl hmn
  | error e => exact .error hmn

/-- What is done next depends on the machine. -/
theorem translates_get {f : Machine σ → Exec σ α} {f' : Machine τ → Exec τ β}
    (h : ∀ m n, T m n → Translated r T V (f m m) (f' n n)) :
    Translates r T V (get >>= f) (get >>= f') := h

variable [Sink σ] [Sink τ]

theorem translates_eval (hT : Translation r N T) {f f' : Store → Eval α}
    (h : ∀ s t : Store, s.Renamed r N t → f' t = renameError r (f s)) :
    Translates r T Eq (Exec.eval f) (Exec.eval f') :=
  fun m n hmn => translates_ofEval (h _ _ (hT.store hmn)) m n hmn

theorem translates_find (hT : Translation r N T) {name : Name} (hn : N name.text) :
    Translates r T Eq (Exec.eval fun s => s.find name) (Exec.eval fun s => s.find (name.rename r)) :=
  translates_eval hT fun _ _ h => h.find hn

theorem translates_set (hT : Translation r N T) {name : Name} (hn : N name.text) (value : Value) :
    Translates r T Eq (Exec.modifyStore fun s => s.set name.text value)
      (Exec.modifyStore fun s => s.set (name.rename r).text value) :=
  fun _ _ hmn => .ok rfl (hT.set hmn hn value)

/-! ### Declarations and assignments -/

theorem translates_firstValue (hT : Translation r N T) (type : DataType) {d : Declared}
    (hd : ∀ x ∈ d.names, N x) :
    Translates r T Eq (Exec.firstValue type d) (Exec.firstValue type (d.rename r)) := by
  obtain ⟨name, _ | e⟩ := d
  · exact translates_pure rfl
  · have he : ∀ x ∈ e.names, N x := fun x hx =>
      hd x (List.mem_cons_of_mem _ (by simpa using hx))
    exact translates_eval hT fun _ _ h => Expr.valueFor_rename h he type

theorem translates_declareOne (hT : Translation r N T) (type : DataType) {d : Declared}
    (hd : ∀ x ∈ d.names, N x) :
    Translates r T Eq (Exec.declareOne type d) (Exec.declareOne type (d.rename r)) := by
  have hname : N d.name.text := hd _ (.head _)
  refine translates_then (translates_firstValue hT type hd) fun value => translates_get fun m n hmn => ?_
  -- the earlier type is looked up before the declaration is carried out
  have hprevious : n.store.type? (d.rename r).name.text = m.store.type? d.name.text :=
    (hT.store hmn).type hname
  have hT' := hT.declare hmn hname type value
  rw [hprevious]
  cases m.store.type? d.name.text with
  | none => exact .ok rfl hT'
  | some earlier => exact .ok rfl (hT.warn hT' (.redeclaration d.name.text earlier type d.name.span))

theorem translates_declare (hT : Translation r N T) (type : DataType) {vars : List Declared}
    (hvars : ∀ x ∈ vars.flatMap Declared.names, N x) :
    Translates r T Eq (Exec.declare type vars) (Exec.declare type (vars.map (Declared.rename r))) := by
  induction vars with
  | nil => exact translates_pure rfl
  | cons d vars ih =>
      rw [List.flatMap_cons] at hvars
      obtain ⟨hd, hrest⟩ := List.forall_mem_append.1 hvars
      exact translates_then (translates_declareOne hT type hd) fun _ => ih hrest

theorem translates_passOn (hT : Translation r N T) (value : Value) (inner : Name)
    (innerType : DataType) {outers : List Name} (ho : ∀ x ∈ outers.map Name.text, N x) :
    Translates r T Eq (Exec.passOn value inner innerType outers)
      (Exec.passOn value (inner.rename r) innerType (outers.map (Name.rename r))) := by
  induction outers generalizing inner innerType with
  | nil => exact translates_pure rfl
  | cons outer outers ih =>
      have hname : N outer.text := ho _ (.head _)
      refine translates_then (translates_find hT hname) fun v => ?_
      split
      · exact translates_fail rfl _
      · refine translates_then (translates_set hT hname value) fun _ => ?_
        exact ih outer v.type fun x hx => ho x (.tail _ hx)

theorem translates_assign (hT : Translation r N T) {a : Assignment} (ha : ∀ x ∈ a.names, N x) :
    Translates r T Eq (Exec.assign a) (Exec.assign (a.rename r)) := by
  obtain ⟨htargets, hvalue⟩ := List.forall_mem_append.1 ha
  unfold Exec.assign
  rw [Assignment.rename, ← List.map_reverse]
  have hrev : ∀ x ∈ a.targets.reverse.map Name.text, N x := by
    intro x hx
    rw [List.map_reverse] at hx
    exact htargets x (List.mem_reverse.1 hx)
  cases htarget : a.targets.reverse with
  | nil => exact translates_pure rfl
  | cons innermost outers =>
      rw [htarget] at hrev
      have hname : N innermost.text := hrev _ (.head _)
      refine translates_then (translates_find hT hname) fun v => ?_
      refine translates_then (translates_eval hT fun _ _ h => Expr.valueFor_rename h hvalue v.type)
        fun value => ?_
      refine translates_then (translates_set hT hname value) fun _ => ?_
      exact translates_passOn hT value innermost v.type fun x hx => hrev x (.tail _ hx)

/-! ### Output -/

/-- Offering bytes until all are taken.  A call takes any number of them, so that the induction is on how
many are left. -/
theorem answerAlike_writeAll (hT : Translation r N T) (bytes : List UInt8) :
    AnswerAlike T (Sink.writeAll bytes) (Sink.writeAll bytes) := by
  induction hlen : bytes.length using Nat.strongRecOn generalizing bytes with
  | ind len ih =>
      intro m n hmn
      cases bytes with
      | nil =>
          rw [Sink.writeAll, Sink.writeAll]
          exact ⟨rfl, hmn⟩
      | cons b bytes =>
          obtain ⟨hanswer, hT'⟩ := hT.write (b :: bytes) hmn
          rw [Sink.writeAll, Sink.writeAll]
          generalize Sink.write (b :: bytes) m.sink = end₁ at hanswer hT' ⊢
          generalize Sink.write (b :: bytes) n.sink = end₂ at hanswer hT' ⊢
          obtain ⟨answer, s⟩ := end₁
          obtain ⟨_, t⟩ := end₂
          obtain rfl := hanswer
          rcases answer with kind | k
          · exact ⟨rfl, hT'⟩
          · cases k with
            | zero => exact ⟨rfl, hT'⟩
            | succ k =>
                have hlt : (bytes.drop k).length < len := by
                  rw [← hlen, List.length_drop, List.length_cons]
                  omega
                exact ih _ hlt (bytes.drop k) rfl hT'

/-- One call of a sink, and another one if it did not fail. -/
def Sink.andThen (call next : σ → Except IoKind Unit × σ) (sink : σ) : Except IoKind Unit × σ :=
  match call sink with
  | (.error kind, sink) => (.error kind, sink)
  | (.ok (), sink) => next sink

omit [Sink σ] [Sink τ] in
theorem answerAlike_andThen {call next : σ → Except IoKind Unit × σ}
    {call' next' : τ → Except IoKind Unit × τ} (h : AnswerAlike T call call')
    (h' : AnswerAlike T next next') :
    AnswerAlike T (Sink.andThen call next) (Sink.andThen call' next') := by
  intro m n hmn
  obtain ⟨hanswer, hT⟩ := h hmn
  unfold Sink.andThen
  generalize call m.sink = end₁ at hanswer hT ⊢
  generalize call' n.sink = end₂ at hanswer hT ⊢
  obtain ⟨answer, s⟩ := end₁
  obtain ⟨_, t⟩ := end₂
  obtain rfl := hanswer
  rcases answer with kind | _
  · exact ⟨rfl, hT⟩
  · exact h' hT

theorem answerAlike_writeLine (hT : Translation r N T) (line : String) :
    AnswerAlike T (Sink.writeLine line) (Sink.writeLine line) :=
  answerAlike_andThen (answerAlike_writeAll hT (Utf8.encode line))
    (answerAlike_andThen (answerAlike_writeAll hT (Utf8.encode "\n")) hT.flush)

omit [Sink σ] [Sink τ] in
theorem translates_useSink (span : Span) {act : σ → Except IoKind Unit × σ}
    {act' : τ → Except IoKind Unit × τ} (h : AnswerAlike T act act') :
    Translates r T Eq (Exec.useSink span act) (Exec.useSink span act') := by
  rintro ⟨store, input, sink, warnings⟩ ⟨store', input', sink', warnings'⟩ hmn
  obtain ⟨hanswer, hT'⟩ := h hmn
  unfold Exec.useSink
  simp only at hanswer hT' ⊢
  generalize act sink = end₁ at hanswer hT' ⊢
  generalize act' sink' = end₂ at hanswer hT' ⊢
  obtain ⟨answer, s⟩ := end₁
  obtain ⟨_, t⟩ := end₂
  obtain rfl := hanswer
  rcases answer with kind | _
  · exact .error hT'
  · exact .ok rfl hT'

theorem translates_printItems (hT : Translation r N T) (span : Span) {items : List PrintItem}
    (hi : ∀ x ∈ items.flatMap PrintItem.names, N x) (line : String) :
    Translates r T Eq (Exec.printItems span line items)
      (Exec.printItems span line (items.map (PrintItem.rename r))) := by
  have hwrite : ∀ line span, Translates r T Eq (Exec.writeLine line span) (Exec.writeLine line span) :=
    fun line span => translates_useSink span (answerAlike_writeLine hT line)
  induction items generalizing line with
  | nil =>
      rw [List.map_nil, Exec.printItems, Exec.printItems]
      split
      · exact translates_pure rfl
      · exact hwrite line span
  | cons item items ih =>
      rw [List.flatMap_cons] at hi
      obtain ⟨hitem, hrest⟩ := List.forall_mem_append.1 hi
      cases item with
      | text content _ => exact ih hrest _
      | var name => exact translates_then (translates_find hT (hitem _ (.head _))) fun v => ih hrest _
      | expr e =>
          exact translates_then (translates_eval hT fun _ _ h => Expr.display_rename h hitem)
            fun shown => ih hrest _
      | lineBreak s => exact translates_then (hwrite line s) fun _ => ih hrest _

/-! ### Input -/

/-- The same variables with other names, all of which are names for which `N` holds. -/
def TypedAlike (r : String → String) (N : String → Prop) (typed typed' : List (Name × DataType)) :
    Prop :=
  typed' = typed.map (fun x => (x.1.rename r, x.2)) ∧ ∀ x ∈ typed, N x.1.text

theorem translates_typesOf (hT : Translation r N T) {names : List Name}
    (hn : ∀ x ∈ names.map Name.text, N x) :
    Translates r T (TypedAlike r N) (Exec.typesOf names)
      (Exec.typesOf (names.map (Name.rename r))) := by
  induction names with
  | nil => exact translates_pure ⟨rfl, by simp⟩
  | cons name names ih =>
      have hname : N name.text := hn _ (.head _)
      refine translates_then (translates_find hT hname) fun v => ?_
      refine translates_bind (ih fun x hx => hn x (.tail _ hx)) ?_
      rintro others _ ⟨rfl, hothers⟩
      exact translates_pure ⟨rfl, List.forall_mem_cons.2 ⟨hname, hothers⟩⟩

theorem translates_readFields (hT : Translation r N T) (span : Span) :
    Translates r T Eq (Exec.readFields span) (Exec.readFields span) := by
  intro m n hmn
  have hT' := hT.read hmn (Input.takeLine m.input).2
  rw [readFields_eq, readFields_eq, ← hT.input hmn]
  unfold Exec.fieldsOf
  split
  · exact .ok rfl hT'
  · cases Utf8.decode? (Input.takeLine m.input).1 with
    | some text => exact .ok rfl hT'
    | none => exact .error hT'

theorem translates_takeFields (hT : Translation r N T) {typed typed' : List (Name × DataType)}
    (h : TypedAlike r N typed typed') (fields : List (List Char)) :
    Translates r T Eq (Exec.takeFields typed fields) (Exec.takeFields typed' fields) := by
  obtain ⟨rfl, hn⟩ := h
  induction typed generalizing fields with
  | nil => exact translates_pure rfl
  | cons x typed ih =>
      cases fields with
      | nil => exact translates_pure rfl
      | cons field fields =>
          obtain ⟨hname, hrest⟩ := List.forall_mem_cons.1 hn
          refine translates_then (translates_ofEval (convert_rename x.1 x.2 field)) fun value => ?_
          exact translates_then (translates_set hT hname value) fun _ => ih fields hrest

theorem translates_read (hT : Translation r N T) {names : List Name}
    (hn : ∀ x ∈ names.map Name.text, N x) (span : Span) :
    Translates r T Eq (Exec.read names span) (Exec.read (names.map (Name.rename r)) span) := by
  refine translates_bind (translates_typesOf hT hn) fun typed typed' htyped => ?_
  refine translates_then (translates_readFields hT span) fun fields => ?_
  rw [List.length_map]
  split
  · exact translates_fail rfl span
  · exact translates_takeFields hT htyped fields

/-! ### Statements with blocks -/

theorem translates_stepCounter (hT : Translation r N T) {counter : Name} (hc : N counter.text)
    (step : Step) :
    Translates r T Eq (Exec.stepCounter counter step) (Exec.stepCounter (counter.rename r) step) := by
  refine translates_then (translates_find hT hc) fun v => ?_
  cases v.value with
  | number x => exact translates_set hT hc _
  | truth b => exact translates_fail rfl _
  | text t => exact translates_fail rfl _

theorem translates_test (hT : Translation r N T) {test : Expr} (ht : ∀ x ∈ test.names, N x)
    {x x' : Exec σ Unit} {y y' : Exec τ Unit} (h : Translates r T Eq x y)
    (h' : Translates r T Eq x' y') :
    Translates r T Eq (do if ← Exec.eval fun s => test.evalTruth s then x else x')
      (do if ← Exec.eval fun s => (test.rename r).evalTruth s then y else y') := by
  refine translates_then (translates_eval hT fun _ _ h => (Expr.eval_rename h ht).2.1) fun holds => ?_
  cases holds with
  | true => exact h
  | false => exact h'

/-- The repetitions of a loop.  One more of them is one more test and one more run of the body. -/
theorem translates_repeatF (hT : Translation r N T) {test : Expr} (ht : ∀ x ∈ test.names, N x)
    {body : Exec σ Unit} {body' : Exec τ Unit} (hb : Translates r T Eq body body') (fuel : Nat) :
    Translates r T Eq (Exec.repeatF (Exec.eval fun s => test.evalTruth s) body fuel)
      (Exec.repeatF (Exec.eval fun s => (test.rename r).evalTruth s) body' fuel) := by
  induction fuel with
  | zero => exact fun m n hmn => .error (h := .outOfFuel) hmn
  | succ fuel ih =>
      exact translates_test hT ht (translates_then hb fun _ => ih) (translates_pure rfl)

mutual

/-- **A statement with other names does the same.** -/
theorem translates_stmt (hT : Translation r N T) (fuel : Nat) :
    ∀ s : Stmt, (∀ x ∈ s.names, N x) → Translates r T Eq (s.exec fuel) ((s.rename r).exec fuel)
  | .declaration type _ _, h => translates_declare hT type h
  | .assignment _, h => translates_assign hT h
  | .print _ span, h => translates_printItems hT span h ""
  | .input _ span, h => translates_read hT h span
  | .conditional _ body rest _, h => by
      obtain ⟨hboth, hrest⟩ := List.forall_mem_append.1 h
      obtain ⟨htest, hbody⟩ := List.forall_mem_append.1 hboth
      exact translates_test hT htest (translates_block hT fuel body hbody)
        (translates_otherwise hT fuel rest hrest)
  | .loop _ _ _ step body _, h => by
      obtain ⟨hhead, hbody⟩ := List.forall_mem_append.1 h
      obtain ⟨hfirst, htest⟩ := List.forall_mem_append.1 hhead
      obtain ⟨hcounter, hbody⟩ := List.forall_mem_cons.1 hbody
      refine translates_then (translates_assign hT hfirst) fun _ => ?_
      refine translates_repeatF hT htest ?_ fuel
      exact translates_then (translates_block hT fuel body hbody) fun _ =>
        translates_stepCounter hT hcounter step

theorem translates_block (hT : Translation r N T) (fuel : Nat) :
    ∀ b : Block, (∀ x ∈ b.names, N x) → Translates r T Eq (b.exec fuel) ((b.rename r).exec fuel)
  | .mk body _, h => translates_execAll hT fuel body h

theorem translates_otherwise (hT : Translation r N T) (fuel : Nat) :
    ∀ o : Otherwise, (∀ x ∈ o.names, N x) → Translates r T Eq (o.exec fuel) ((o.rename r).exec fuel)
  | .nothing, _ => translates_pure rfl
  | .branch _ body rest, h => by
      obtain ⟨hboth, hrest⟩ := List.forall_mem_append.1 h
      obtain ⟨htest, hbody⟩ := List.forall_mem_append.1 hboth
      exact translates_test hT htest (translates_block hT fuel body hbody)
        (translates_otherwise hT fuel rest hrest)
  | .always body, h => translates_block hT fuel body h

theorem translates_execAll (hT : Translation r N T) (fuel : Nat) :
    ∀ ss : List Stmt, (∀ x ∈ bodyNames ss, N x) →
      Translates r T Eq (execAll fuel ss) (execAll fuel (renameBody r ss))
  | [], _ => translates_pure rfl
  | s :: ss, h => by
      obtain ⟨hs, hss⟩ := List.forall_mem_append.1 h
      exact translates_then (translates_stmt hT fuel s hs) fun _ => translates_execAll hT fuel ss hss

end

/-- **A program with other names does the same**, and leaves the machines related. -/
theorem translates_program (hT : Translation r N T) (fuel : Nat) {p : Program}
    (hp : ∀ x ∈ p.names, N x) : Translates r T Eq (p.exec fuel) ((p.rename r).exec fuel) :=
  translates_then (translates_execAll hT fuel p.body hp) fun _ => translates_useSink p.span hT.flush

end

end BisayaLang
