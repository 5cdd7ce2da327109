/-
**What a program does not change.**

Four kinds of statements change variables: declarations, assignments, input, and loops, which give their
counter its first value and step it.  The names that they change stand in the program.  Any other variable
is left alone, however the run goes and also where it fails: it keeps its type and its value, even if the
program reads it.

Main definitions:

* `BisayaLang.Stmt.changes`, `BisayaLang.Block.changes` — the names that a statement or a block changes;
* `BisayaLang.Spares` — a computation leaves a variable as it is.

Main results:

* `BisayaLang.spares_stmt`, `BisayaLang.spares_block` — **a variable that is not changed by name is kept**.
-/

import BisayaLang.Proofs.Execution.Fields

set_option relaxedAutoImplicit false
set_option autoImplicit false

namespace BisayaLang

/-! ### The names that are changed -/

mutual

/-- The names that a statement declares, assigns, reads or steps. -/
def Stmt.changes : Stmt → List String
  | .declaration _ vars _ => vars.map fun d => d.name.text
  | .assignment a => a.targets.map Name.text
  | .print _ _ => []
  | .input names _ => names.map Name.text
  | .conditional _ body rest _ => body.changes ++ rest.changes
  | .loop first _ counter _ body _ => first.targets.map Name.text ++ counter.text :: body.changes

/-- The names that a block changes. -/
def Block.changes : Block → List String
  | .mk body _ => bodyChanges body

/-- The names that the later branches of a conditional change. -/
def Otherwise.changes : Otherwise → List String
  | .nothing => []
  | .branch _ body rest => body.changes ++ rest.changes
  | .always body => body.changes

/-- The names that some statements change. -/
def bodyChanges : List Stmt → List String
  | [] => []
  | s :: rest => s.changes ++ bodyChanges rest

end

/-! ### Computations that keep a variable -/

section

variable {σ α β : Type} {x : String}

/-- Whatever the computation comes to, the variable is as before. -/
def Spares (x : String) (c : Exec σ α) : Prop :=
  ∀ m, (machineOf (c m)).store.get? x = m.store.get? x

theorem Spares.of_ok {c : Exec σ α} (h : Spares x c) {m m' : Machine σ} {a : α} (hc : c m = .ok a m') :
    m'.store.get? x = m.store.get? x := by
  have hm := h m
  rw [hc] at hm
  exact hm

theorem spares_pure (a : α) : Spares x (pure a : Exec σ α) := fun _ => rfl

/-- What is done next may depend on what can come of the first part. -/
theorem spares_bind_of {Q : α → Prop} {c : Exec σ α} {f : α → Exec σ β} (h : Spares x c)
    (hQ : ∀ m a m', c m = .ok a m' → Q a) (hf : ∀ a, Q a → Spares x (f a)) : Spares x (c >>= f) := by
  intro m
  have hm := h m
  show (machineOf (EStateM.bind c f m)).store.get? x = _
  unfold EStateM.bind
  cases hc : c m with
  | ok a m' =>
      rw [hc] at hm
      exact (hf a (hQ m a m' hc) m').trans hm
  | error e m' =>
      rw [hc] at hm
      exact hm

theorem spares_bind {c : Exec σ α} {f : α → Exec σ β} (h : Spares x c) (hf : ∀ a, Spares x (f a)) :
    Spares x (c >>= f) :=
  spares_bind_of (Q := fun _ => True) h (fun _ _ _ _ => trivial) fun a _ => hf a

theorem spares_fail (fault : RuntimeFault) (span : Span) :
    Spares x (Exec.fail fault span : Exec σ α) := fun _ => rfl

theorem spares_ofEval (e : Eval α) : Spares x (Exec.ofEval e : Exec σ α) := by
  intro m
  cases e <;> rfl

theorem spares_eval (f : Store → Eval α) : Spares x (Exec.eval f : Exec σ α) :=
  fun m => spares_ofEval (f m.store) m

theorem spares_get : Spares x (get : Exec σ (Machine σ)) := fun _ => rfl

theorem spares_warn (w : Warning) : Spares x (Exec.warn w : Exec σ Unit) := fun _ => rfl

theorem spares_set {name : String} (h : x ≠ name) (value : Value) :
    Spares x (Exec.modifyStore fun s => s.set name value : Exec σ Unit) := by
  intro m
  show (m.store.set name value).get? x = m.store.get? x
  rw [Store.get?_set, beq_eq_false_iff_ne.2 h]
  rfl

theorem spares_declare_name {name : String} (h : x ≠ name) (type : DataType) (value : Value) :
    Spares x (Exec.modifyStore fun s => s.declare name type value : Exec σ Unit) := by
  intro m
  show (m.store.declare name type value).get? x = m.store.get? x
  rw [Store.get?_declare, beq_eq_false_iff_ne.2 h]
  rfl

theorem spares_useSink (span : Span) (act : σ → Except IoKind Unit × σ) :
    Spares x (Exec.useSink span act : Exec σ Unit) := by
  rintro ⟨store, input, sink, warnings⟩
  unfold Exec.useSink
  simp only
  split <;> rfl

/-! ### The statements without blocks -/

theorem spares_declare (type : DataType) {vars : List Declared}
    (h : x ∉ vars.map fun d => d.name.text) : Spares x (Exec.declare type vars : Exec σ Unit) := by
  induction vars with
  | nil => exact spares_pure _
  | cons d vars ih =>
      obtain ⟨hd, hrest⟩ := not_or.1 (List.mem_cons.not.1 h)
      refine spares_bind (spares_bind ?_ fun value => spares_bind spares_get fun m =>
        spares_bind (spares_declare_name hd type value) fun _ => ?_) fun _ => ih hrest
      · unfold Exec.firstValue
        split
        · exact spares_eval _
        · exact spares_pure _
      · split
        · exact spares_warn _
        · exact spares_pure _

theorem spares_passOn (value : Value) (inner : Name) (innerType : DataType) {outers : List Name}
    (h : x ∉ outers.map Name.text) :
    Spares x (Exec.passOn value inner innerType outers : Exec σ Unit) := by
  induction outers generalizing inner innerType with
  | nil => exact spares_pure _
  | cons outer outers ih =>
      obtain ⟨houter, hrest⟩ := not_or.1 (List.mem_cons.not.1 h)
      refine spares_bind (spares_eval _) fun v => ?_
      split
      · exact spares_fail _ _
      · exact spares_bind (spares_set houter value) fun _ => ih outer v.type hrest

theorem spares_assign {a : Assignment} (h : x ∉ a.targets.map Name.text) :
    Spares x (Exec.assign a : Exec σ Unit) := by
  have hrev : x ∉ a.targets.reverse.map Name.text := by
    rw [List.map_reverse, List.mem_reverse]
    exact h
  unfold Exec.assign
  split
  · exact spares_pure _
  · rename_i innermost rest htargets
    rw [htargets] at hrev
    obtain ⟨hinnermost, hrest⟩ := not_or.1 (List.mem_cons.not.1 hrev)
    exact spares_bind (spares_eval _) fun v => spares_bind (spares_eval _) fun value =>
      spares_bind (spares_set hinnermost value) fun _ => spares_passOn value innermost v.type hrest

theorem spares_printItems [Sink σ] (span : Span) (line : String) (items : List PrintItem) :
    Spares x (Exec.printItems span line items : Exec σ Unit) := by
  induction items generalizing line with
  | nil =>
      unfold Exec.printItems
      split
      · exact spares_pure _
      · exact spares_useSink _ _
  | cons item items ih =>
      cases item with
      | text content _ => exact ih _
      | var name => exact spares_bind (spares_eval _) fun v => ih _
      | expr e => exact spares_bind (spares_eval _) fun shown => ih _
      | lineBreak breakSpan => exact spares_bind (spares_useSink _ _) fun _ => ih _

theorem spares_typesOf (names : List Name) : Spares x (Exec.typesOf names : Exec σ _) := by
  induction names with
  | nil => exact spares_pure _
  | cons name names ih =>
      exact spares_bind (spares_eval _) fun v => spares_bind ih fun others => spares_pure _

theorem spares_readFields (span : Span) : Spares x (Exec.readFields span : Exec σ _) := by
  intro m
  rw [readFields_eq]
  unfold Exec.fieldsOf
  split
  · rfl
  · cases Utf8.decode? (Input.takeLine m.input).1 <;> rfl

theorem spares_takeFields {typed : List (Name × DataType)} (h : ∀ t ∈ typed, x ≠ t.1.text)
    (fields : List (List Char)) : Spares x (Exec.takeFields typed fields : Exec σ Unit) := by
  induction typed generalizing fields with
  | nil => exact spares_pure _
  | cons t typed ih =>
      cases fields with
      | nil => exact spares_pure _
      | cons field fields =>
          obtain ⟨ht, hrest⟩ := List.forall_mem_cons.1 h
          exact spares_bind (spares_ofEval _) fun value => spares_bind (spares_set ht value) fun _ =>
            ih hrest fields

/-- The variables that take input are those of the statement. -/
theorem mem_of_typesOf {names : List Name} {m m' : Machine σ} {typed : List (Name × DataType)}
    (h : Exec.typesOf names m = .ok typed m') {t : Name × DataType} (ht : t ∈ typed) :
    t.1 ∈ names := by
  rw [typesOf_run] at h
  split at h <;> cases h
  obtain ⟨name, hname, htype⟩ := List.mem_filterMap.1 ht
  obtain ⟨type, -, rfl⟩ := Option.map_eq_some_iff.1 htype
  exact hname

theorem spares_read {names : List Name} (h : x ∉ names.map Name.text) (span : Span) :
    Spares x (Exec.read names span : Exec σ Unit) := by
  refine spares_bind_of (Q := fun typed => ∀ t ∈ typed, t.1 ∈ names) (spares_typesOf names)
    (fun m typed m' hrun t ht => mem_of_typesOf hrun ht) fun typed htyped => ?_
  refine spares_bind (spares_readFields span) fun fields => ?_
  split
  · exact spares_fail _ _
  · refine spares_takeFields (fun t ht hx => h ?_) fields
    rw [hx]
    exact List.mem_map_of_mem (htyped t ht)

/-! ### The statements with blocks -/

theorem spares_stepCounter {counter : Name} (h : x ≠ counter.text) (step : Step) :
    Spares x (Exec.stepCounter counter step : Exec σ Unit) := by
  refine spares_bind (spares_eval _) fun v => ?_
  cases v.value with
  | number y => exact spares_set h _
  | truth b => exact spares_fail _ _
  | text t => exact spares_fail _ _

theorem spares_test (f : Store → Eval Bool) {c c' : Exec σ Unit} (h : Spares x c) (h' : Spares x c') :
    Spares x (do if ← Exec.eval f then c else c') := by
  refine spares_bind (spares_eval f) fun holds => ?_
  cases holds with
  | true => exact h
  | false => exact h'

theorem spares_repeatF (f : Store → Eval Bool) {body : Exec σ Unit} (h : Spares x body) (fuel : Nat) :
    Spares x (Exec.repeatF (Exec.eval f) body fuel) := by
  induction fuel with
  | zero => exact fun _ => rfl
  | succ fuel ih => exact spares_test f (spares_bind h fun _ => ih) (spares_pure _)

variable [Sink σ]

mutual

/-- **A variable that a statement does not change is kept.** -/
theorem spares_stmt (fuel : Nat) : ∀ s : Stmt, x ∉ s.changes → Spares x (s.exec fuel : Exec σ Unit)
  | .declaration type _ _, h => spares_declare type h
  | .assignment _, h => spares_assign h
  | .print items span, _ => spares_printItems span "" items
  | .input _ span, h => spares_read h span
  | .conditional _ body rest _, h => by
      obtain ⟨hbody, hrest⟩ := not_or.1 (List.mem_append.not.1 h)
      exact spares_test _ (spares_block fuel body hbody) (spares_otherwise fuel rest hrest)
  | .loop _ _ _ step body _, h => by
      obtain ⟨hfirst, hrest⟩ := not_or.1 (List.mem_append.not.1 h)
      obtain ⟨hcounter, hbody⟩ := not_or.1 (List.mem_cons.not.1 hrest)
      refine spares_bind (spares_assign hfirst) fun _ => spares_repeatF _ ?_ fuel
      exact spares_bind (spares_block fuel body hbody) fun _ => spares_stepCounter hcounter step

/-- **A variable that a block does not change is kept.** -/
theorem spares_block (fuel : Nat) : ∀ b : Block, x ∉ b.changes → Spares x (b.exec fuel : Exec σ Unit)
  | .mk body _, h => spares_execAll fuel body h

theorem spares_otherwise (fuel : Nat) :
    ∀ o : Otherwise, x ∉ o.changes → Spares x (o.exec fuel : Exec σ Unit)
  | .nothing, _ => spares_pure _
  | .branch _ body rest, h => by
      obtain ⟨hbody, hrest⟩ := not_or.1 (List.mem_append.not.1 h)
      exact spares_test _ (spares_block fuel body hbody) (spares_otherwise fuel rest hrest)
  | .always body, h => spares_block fuel body h

theorem spares_execAll (fuel : Nat) :
    ∀ ss : List Stmt, x ∉ bodyChanges ss → Spares x (execAll fuel ss : Exec σ Unit)
  | [], _ => spares_pure _
  | s :: ss, h => by
      obtain ⟨hs, hss⟩ := not_or.1 (List.mem_append.not.1 h)
      exact spares_bind (spares_stmt fuel s hs) fun _ => spares_execAll fuel ss hss

end

end

end BisayaLang
