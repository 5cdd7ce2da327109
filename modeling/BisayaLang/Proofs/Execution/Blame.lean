/-
**What a running program blames.**

An error of a running program marks the node that it is about: the name that is not declared, the
operation that divides by zero, the statement whose output is not taken.  So does a warning.  All nodes of
a program that was read from a text mark parts of it, and no error or warning marks anything else.  A
name marks the characters that spell it, and so does the error that it is not declared, and the warning
that it is declared again.

Main definitions:

* `BisayaLang.Located.Marks`, `BisayaLang.Anchored` — a node, and every node in it, marks a part of the
  text;
* `BisayaLang.RuntimeError.Marks`, `BisayaLang.Warning.Marks` — so does an error, and a warning;
* `BisayaLang.Blames`, `BisayaLang.Tells` — so does whatever an evaluation or a computation reports.

Main results:

* `BisayaLang.anchored_of_parse` — every node of a program marks a part of the text it was read from;
* `BisayaLang.Expr.blamed` — the errors of evaluating an expression;
* `BisayaLang.Task.step_marks`, `BisayaLang.Config.Steps.marks` — one step of a run, and several;
* `BisayaLang.Program.exec_tells` — **what a run reports marks parts of the text**.
-/

import BisayaLang.Proofs.Execution.Steps
import BisayaLang.Proofs.Grammar.Placement

set_option relaxedAutoImplicit false
set_option autoImplicit false

namespace BisayaLang

/-! ### Nodes that mark parts of a text -/

/-- The node marks a part of the text.  A name marks the characters that spell it. -/
def Located.Marks (text : List Char) : Located → Prop
  | .name n => Slice text n.span n.text.toList
  | n => n.span.Fits text

theorem Located.Marks.fits {text : List Char} {n : Located} (h : n.Marks text) :
    n.span.Fits text := by
  cases n with
  | name n => exact Slice.fits h
  | _ => exact h

/-- The node and all nodes in it mark parts of the text. -/
def Anchored (text : List Char) (root : Located) : Prop := ∀ n, Within root n → n.Marks text

theorem Within.trans {root n m : Located} (h : Within root n) (h' : Within n m) :
    Within root m := by
  induction h' with
  | root => exact h
  | child _ hmem ih => exact .child ih hmem

namespace Anchored

variable {text : List Char} {n k : Located}

theorem fits (h : Anchored text n) : n.span.Fits text := (h n .root).fits

theorem child (h : Anchored text n) (hk : k ∈ n.children) : Anchored text k :=
  fun _ hm => h _ ((Within.child .root hk).trans hm)

theorem of_children (hn : n.Marks text) (h : ∀ k ∈ n.children, Anchored text k) :
    Anchored text n := by
  have hcases : ∀ m, Within n m → m = n ∨ ∃ k ∈ n.children, Within k m := by
    intro m hm
    induction hm with
    | root => exact .inl rfl
    | @child m k _ hk ih =>
        rcases ih with rfl | ⟨k', hk', hm⟩
        · exact .inr ⟨k, hk, .root⟩
        · exact .inr ⟨k', hk', .child hm hk⟩
  intro m hm
  rcases hcases m hm with rfl | ⟨k, hk, hm⟩
  · exact hn
  · exact h k hk m hm

end Anchored

/-- A node that is read from tokens in their places marks the text from the first to the last of them. -/
theorem ReadFrom.fits {text : List Char} {tokens : List Spanned} {n : Located}
    (h : ReadFrom tokens n) (ht : Tiling false 0 text tokens) : n.span.Fits text := by
  obtain ⟨before, run, after, first, last, -, -, rfl, -, -, -, hfirst, hlast, hspan⟩ := h
  have hmem : ∀ t ∈ run, t ∈ before ++ run ++ after := fun t h => by simp [h]
  have hfits := ht.fits first (hmem _ (List.mem_of_head? hfirst))
  have hfits' := ht.fits last (hmem _ (List.mem_of_getLast? hlast))
  rw [hspan]
  refine hfits.extend hfits' ?_
  obtain ⟨back, rfl⟩ := List.head?_eq_some_iff.1 hfirst
  rcases List.mem_cons.1 (List.mem_of_getLast? hlast) with rfl | hback
  · exact hfits.le
  · have hpair := (List.pairwise_append.1 (List.pairwise_append.1 ht.ordered).1).2.1
    have hle := (List.pairwise_cons.1 hpair).1 last hback
    have hle₁ := hfits.le
    have hle₂ := hfits'.le
    omega

/-- **Every node of a program marks a part of the text it was read from.** -/
theorem anchored_of_parse {text : String} {p : Parsed} (h : parseProgram text = .ok p) :
    Anchored text.toList (.program p.program) := by
  obtain ⟨tokens, d, -, htiling, hp, -⟩ := parseProgram_stands h
  intro n hn
  obtain ⟨m, m', hl, hstands⟩ := hn.stands hp
  have hread := hstands.readFrom hl htiling.inOrder
  cases n with
  | name n =>
      obtain ⟨hcurrent, hspan, -⟩ := Parse.name_eq_ok.1 hstands
      obtain ⟨run, hrun⟩ := hl
      obtain ⟨t, rest, htokens, hkind, ht, -⟩ :=
        Cursor.tokens_of_current (c := m) (by simp [hcurrent])
      have hmem : t ∈ tokens := by
        rw [show tokens = run ++ m.tokens from hrun.tokens, htokens]
        simp
      rw [hcurrent] at hkind
      obtain ⟨part, hslice, hspelled⟩ := htiling.spelled [] rfl t hmem (by simp [hkind])
      have hpart := hspelled.spelledBy
      rw [hkind] at hpart
      show Slice text.toList n.span n.text.toList
      rw [hspan, ← ht, ← show part = n.text.toList from hpart]
      exact hslice
  | _ => exact hread.fits htiling

/-! ### Evaluation -/

/-- The error marks a part of the text.  That a name is not declared is marked at the characters that
spell the name. -/
def RuntimeError.Marks (text : List Char) (e : RuntimeError) : Prop :=
  match e.fault with
  | .undefinedVariable name => Slice text e.span name.toList
  | _ => e.span.Fits text

theorem RuntimeError.Marks.fits {text : List Char} {e : RuntimeError} (h : e.Marks text) :
    e.span.Fits text := by
  unfold RuntimeError.Marks at h
  split at h
  · exact h.fits
  · exact h

/-- Whatever error the evaluation comes to marks a part of the text. -/
def Blames {α : Type} (text : List Char) (x : Eval α) : Prop := ∀ e, x = .error e → e.Marks text

section

variable {text : List Char} {α β : Type}

theorem blames_ok (a : α) : Blames text (.ok a : Eval α) := fun _ h => (nomatch h)

theorem blames_error {e : RuntimeError} (h : e.Marks text) : Blames text (.error e : Eval α) := by
  intro e' he
  cases he
  exact h

theorem blames_bind {x : Eval α} {f : α → Eval β} (hx : Blames text x)
    (hf : ∀ a, Blames text (f a)) : Blames text (x >>= f) := by
  intro e he
  cases x with
  | ok a => exact hf a e he
  | error e' =>
      cases he
      exact hx e rfl

theorem blames_map {x : Eval α} (f : α → β) (hx : Blames text x) : Blames text (f <$> x) := by
  rw [map_eq_pure_bind]
  exact blames_bind hx fun a => blames_ok (f a)

theorem blames_find {n : Name} (h : Anchored text (.name n)) (s : Store) :
    Blames text (s.find n) := by
  unfold Store.find
  split
  · exact blames_ok _
  · exact blames_error (h _ .root)

theorem blames_asNumber {span : Span} (h : span.Fits text) (v : Value) :
    Blames text (v.asNumber span) := by
  unfold Value.asNumber
  split
  · exact blames_ok _
  · exact blames_error h

theorem blames_textNumber {span : Span} (h : span.Fits text) (content : String) :
    Blames text (textNumber content span) := by
  unfold textNumber
  split
  · exact blames_ok _
  · exact blames_error h

theorem blames_textTruth {span : Span} (h : span.Fits text) (content : String) :
    Blames text (textTruth content span) := by
  unfold textTruth
  repeat' split
  · exact blames_ok _
  · exact blames_ok _
  · exact blames_error h

theorem blames_arithmetic {span : Span} (h : span.Fits text) (op : Arithmetic) (x y : Float) :
    Blames text (op.apply span x y) := by
  unfold Arithmetic.apply
  repeat' split
  all_goals first
    | exact blames_ok _
    | exact blames_error h

theorem blames_comparison {span : Span} (h : span.Fits text) (op : Comparison) (a b : Value) :
    Blames text (op.apply span a b) := by
  unfold Comparison.apply Comparison.applyTruth
  repeat' split
  all_goals first
    | exact blames_ok _
    | exact blames_error h

/-- Whatever is asked of an expression, errors mark parts of the text. -/
structure Expr.Blamed (text : List Char) (s : Store) (e : Expr) : Prop where
  number : Blames text (e.evalNumber s)
  truth : Blames text (e.evalTruth s)
  value : Blames text (e.evalValue s)

/-- **The errors of evaluating an expression mark parts of the text.**  The three evaluators call each
other, so that one induction on the expression takes them together. -/
theorem Expr.blamed {e : Expr} (h : Anchored text (.expr e)) (s : Store) : e.Blamed text s := by
  have hspan := h.fits
  induction e with
  | var n =>
      have hfind := blames_find (h.child (.head _)) s
      exact ⟨blames_bind hfind fun v => blames_asNumber hspan v.value,
        blames_bind hfind fun v => blames_ok _, blames_bind hfind fun v => blames_ok _⟩
  | number x lexeme span => exact ⟨blames_ok _, blames_ok _, blames_ok _⟩
  | bool b span => exact ⟨blames_ok _, blames_ok _, blames_ok _⟩
  | text content span =>
      exact ⟨blames_textNumber hspan content, blames_textTruth hspan content, blames_ok _⟩
  | unary op e span ih =>
      have he := h.child (.head _)
      have ih := ih he he.fits
      cases op with
      | minus =>
          refine ⟨?_, ?_, ?_⟩ <;> exact blames_bind ih.number fun x => blames_ok _
      | dili =>
          refine ⟨?_, ?_, ?_⟩ <;> exact blames_bind ih.truth fun b => blames_ok _
  | group e span ih =>
      have he := h.child (.head _)
      have ih := ih he he.fits
      exact ⟨ih.number, ih.truth, ih.value⟩
  | binary op l r span ihl ihr =>
      have hl := h.child (.head _)
      have hr := h.child (.tail _ (.head _))
      have ihl := ihl hl hl.fits
      have ihr := ihr hr hr.fits
      cases op with
      | arithmetic op =>
          have happly := fun x y => blames_arithmetic hspan op x y
          refine ⟨?_, ?_, ?_⟩ <;>
            refine blames_bind ihl.number fun x => blames_bind ihr.number fun y => ?_
          · exact happly x y
          · exact blames_bind (happly x y) fun z => blames_ok _
          · exact blames_bind (happly x y) fun z => blames_ok _
      | comparison op =>
          have happly := fun a b => blames_comparison hspan op a b
          refine ⟨?_, ?_, ?_⟩ <;>
            refine blames_bind ihl.value fun a => blames_bind ihr.value fun b => ?_
          · exact blames_bind (happly a b) fun c => blames_ok _
          · exact happly a b
          · exact blames_bind (happly a b) fun c => blames_ok _
      | connective op =>
          refine ⟨?_, ?_, ?_⟩ <;>
            exact blames_bind ihl.truth fun a => blames_bind ihr.truth fun b => blames_ok _

theorem blames_evalText {e : Expr} (h : Anchored text (.expr e)) (s : Store) :
    Blames text (e.evalText s) := by
  induction e with
  | text content span => exact blames_ok _
  | var n =>
      refine blames_bind (blames_find (h.child (.head _)) s) fun v => ?_
      split
      · exact blames_ok _
      · exact blames_error h.fits
  | group e span ih => exact ih (h.child (.head _))
  | _ => exact blames_error h.fits

theorem blames_display {e : Expr} (h : Anchored text (.expr e)) (s : Store) :
    Blames text (e.display s) := by
  induction e with
  | var n => exact blames_bind (blames_find (h.child (.head _)) s) fun v => blames_ok _
  | group e span ih => exact ih (h.child (.head _))
  | _ => exact blames_bind (Expr.blamed h s).value fun v => blames_ok _

theorem blames_valueFor {e : Expr} (h : Anchored text (.expr e)) (type : DataType) (s : Store) :
    Blames text (e.valueFor s type) := by
  have he := Expr.blamed h s
  cases type with
  | numero => exact blames_map _ he.number
  | tipik => exact blames_map _ he.number
  | tinuod => exact blames_map _ he.truth
  | letra => exact blames_map _ (blames_evalText h s)

theorem blames_convert {n : Name} (h : Anchored text (.name n)) (type : DataType)
    (field : List Char) : Blames text (Input.convert n type field) := by
  have hspan : n.span.Fits text := h.fits
  unfold Input.convert
  simp only
  repeat' split
  all_goals first
    | exact blames_ok _
    | exact blames_error hspan

end

/-! ### Computations -/

/-- The warning marks a part of the text.  That a name is declared again is marked at the characters that
spell the name. -/
def Warning.Marks (text : List Char) : Warning → Prop
  | .redeclaration name _ _ span => Slice text span name.toList
  | .unreachableCode span => span.Fits text

/-- All warnings so far mark parts of the text. -/
def WarnsWell {σ : Type} (text : List Char) (m : Machine σ) : Prop :=
  ∀ w ∈ m.warnings.toList, w.Marks text

/-- The run stopped with an error that marks a part of the text, or it ran out of fuel. -/
def Halt.Marks (text : List Char) : Halt → Prop
  | .error e => e.Marks text
  | .outOfFuel => True

section

variable {σ α β : Type} {text : List Char}

/-- The result has the property, and all warnings and errors mark parts of the text. -/
def Reports (text : List Char) (Q : α → Prop) : EStateM.Result Halt (Machine σ) α → Prop
  | .ok a m => Q a ∧ WarnsWell text m
  | .error h m => h.Marks text ∧ WarnsWell text m

/-- From a machine whose warnings mark parts of the text, so does what the computation reports. -/
def Tells (text : List Char) (x : Exec σ α) (Q : α → Prop) : Prop :=
  ∀ m, WarnsWell text m → Reports text Q (x m)

variable {Q : α → Prop}

theorem tells_pure {a : α} (h : Q a) : Tells text (pure a : Exec σ α) Q := fun _ hm => ⟨h, hm⟩

theorem tells_bind {x : Exec σ β} {f : β → Exec σ α} {R : β → Prop} (hx : Tells text x R)
    (hf : ∀ b, R b → Tells text (f b) Q) : Tells text (x >>= f) Q := by
  intro m hm
  have h := hx m hm
  show Reports text Q (EStateM.bind x f m)
  unfold EStateM.bind
  cases hxm : x m with
  | ok b m' =>
      rw [hxm] at h
      exact hf b h.1 m' h.2
  | error e m' =>
      rw [hxm] at h
      exact h

theorem tells_get {f : Machine σ → Exec σ α} (hf : ∀ m, Tells text (f m) Q) :
    Tells text (get >>= f) Q := fun m hm => hf m m hm

theorem tells_fail {fault : RuntimeFault} {span : Span}
    (h : RuntimeError.Marks text ⟨fault, span⟩) :
    Tells text (Exec.fail fault span : Exec σ α) Q := fun _ hm => ⟨h, hm⟩

theorem tells_ofEval {x : Eval α} (h : Blames text x) :
    Tells text (Exec.ofEval x : Exec σ α) fun _ => True := by
  intro m hm
  cases hx : x with
  | ok a => exact ⟨trivial, hm⟩
  | error e => exact ⟨h e hx, hm⟩

theorem tells_eval {f : Store → Eval α} (h : ∀ s, Blames text (f s)) :
    Tells text (Exec.eval f : Exec σ α) fun _ => True :=
  fun m hm => tells_ofEval (h m.store) m hm

theorem tells_modifyStore (f : Store → Store) :
    Tells text (Exec.modifyStore f : Exec σ Unit) fun _ => True := fun _ hm => ⟨trivial, hm⟩

theorem tells_warn {w : Warning} (h : w.Marks text) :
    Tells text (Exec.warn w : Exec σ Unit) fun _ => True := by
  intro m hm
  refine ⟨trivial, fun v hv => ?_⟩
  rw [Array.toList_push] at hv
  rcases List.mem_append.1 hv with hv | hv
  · exact hm v hv
  · rwa [List.mem_singleton.1 hv]

theorem tells_useSink {span : Span} (h : span.Fits text) (act : σ → Except IoKind Unit × σ) :
    Tells text (Exec.useSink span act) fun _ => True := by
  rintro ⟨store, input, sink, warnings⟩ hm
  rcases hact : act sink with ⟨_ | _, sink'⟩ <;> simp only [Exec.useSink, hact]
  · exact ⟨h, hm⟩
  · exact ⟨trivial, hm⟩

theorem tells_declareOne {d : Declared} (h : ∀ n ∈ d.nodes, Anchored text n) (type : DataType) :
    Tells text (Exec.declareOne type d : Exec σ Unit) fun _ => True := by
  have hname : Anchored text (.name d.name) := h _ (.head _)
  have hvalue : Tells text (Exec.firstValue type d : Exec σ Value) fun _ => True := by
    unfold Exec.firstValue
    cases hd : d.value with
    | some e =>
        have he : Anchored text (.expr e) := h _ (by simp [Declared.nodes, hd])
        exact tells_eval fun s => blames_valueFor he type s
    | none => exact tells_pure trivial
  refine tells_bind hvalue fun value _ => tells_get fun m => ?_
  refine tells_bind (tells_modifyStore _) fun _ _ => ?_
  cases m.store.type? d.name.text with
  | some v => exact tells_warn (hname _ .root)
  | none => exact tells_pure trivial

theorem tells_assignFirst {innermost : Name} {e : Expr} (hn : Anchored text (.name innermost))
    (he : Anchored text (.expr e)) :
    Tells text (Exec.assignFirst innermost e : Exec σ (Value × DataType)) fun _ => True := by
  refine tells_bind (tells_eval (blames_find hn)) fun v _ => ?_
  refine tells_bind (tells_eval (blames_valueFor he v.type)) fun value _ => ?_
  exact tells_bind (tells_modifyStore _) fun _ _ => tells_pure trivial

theorem tells_passOnOne {inner outer : Name} (hi : Anchored text (.name inner))
    (ho : Anchored text (.name outer)) (value : Value) (innerType : DataType) :
    Tells text (Exec.passOnOne value inner innerType outer : Exec σ DataType) fun _ => True := by
  refine tells_bind (tells_eval (blames_find ho)) fun v _ => ?_
  split
  · exact tells_fail (ho.fits.cover hi.fits)
  · exact tells_bind (tells_modifyStore _) fun _ _ => tells_pure trivial

theorem tells_printItems [Sink σ] {span : Span} {items : List PrintItem} (hspan : span.Fits text)
    (h : ∀ i ∈ items, Anchored text (.item i)) (line : String) :
    Tells text (Exec.printItems span line items : Exec σ Unit) fun _ => True := by
  induction items generalizing line with
  | nil =>
      rw [Exec.printItems]
      split
      · exact tells_pure trivial
      · exact tells_useSink hspan _
  | cons i items ih =>
      have hi := h i (.head _)
      have ih := ih fun i hi => h i (.tail _ hi)
      cases i with
      | text content _ => exact ih _
      | var n =>
          exact tells_bind (tells_eval (blames_find (hi.child (.head _)))) fun v _ => ih _
      | expr e =>
          exact tells_bind (tells_eval (blames_display (hi.child (.head _)))) fun shown _ => ih _
      | lineBreak _ => exact tells_bind (tells_useSink hi.fits _) fun _ _ => ih _

theorem tells_typesOf {names : List Name} (h : ∀ n ∈ names, Anchored text (.name n)) :
    Tells text (Exec.typesOf names : Exec σ (List (Name × DataType)))
      fun typed => ∀ x ∈ typed, Anchored text (.name x.1) := by
  induction names with
  | nil => exact tells_pure fun _ hx => absurd hx (by simp)
  | cons n names ih =>
      have hn := h n (.head _)
      refine tells_bind (tells_eval (blames_find hn)) fun v _ => ?_
      refine tells_bind (ih fun n hn => h n (.tail _ hn)) fun typed htyped => ?_
      refine tells_pure fun x hx => ?_
      rcases List.mem_cons.1 hx with rfl | hx
      · exact hn
      · exact htyped x hx

theorem tells_readFields {span : Span} (h : span.Fits text) :
    Tells text (Exec.readFields span : Exec σ (List (List Char))) fun _ => True := by
  intro m hm
  show Reports text _ ((if _ then _ else _ : Exec σ (List (List Char))) { m with input := _ })
  split
  · exact ⟨trivial, hm⟩
  · cases Utf8.decode? (Input.takeLine m.input).1 with
    | some chars => exact ⟨trivial, hm⟩
    | none => exact ⟨h, hm⟩

theorem tells_readTyped {names : List Name} {span : Span} (hspan : span.Fits text)
    (h : ∀ n ∈ names, Anchored text (.name n)) :
    Tells text (Exec.readTyped names span : Exec σ _)
      fun x => ∀ y ∈ x.1, Anchored text (.name y.1) := by
  refine tells_bind (tells_typesOf h) fun typed htyped => ?_
  refine tells_bind (tells_readFields hspan) fun fields _ => ?_
  split
  · exact tells_fail hspan
  · exact tells_pure htyped

theorem tells_takeField {n : Name} (h : Anchored text (.name n)) (type : DataType)
    (field : List Char) : Tells text (Exec.takeField n type field : Exec σ Unit) fun _ => True :=
  tells_bind (tells_ofEval (blames_convert h type field)) fun _ _ => tells_modifyStore _

theorem tells_stepCounter {counter : Name} (h : Anchored text (.name counter)) (step : Step) :
    Tells text (Exec.stepCounter counter step : Exec σ Unit) fun _ => True := by
  refine tells_bind (tells_eval (blames_find h)) fun v _ => ?_
  split
  · exact tells_modifyStore _
  · exact tells_fail h.fits

end

/-! ### Steps of a run -/

/-- The nodes that are left to be run. -/
def Task.nodes : Task → List Located
  | .statement s => [.stmt s]
  | .statements ss => ss.map .stmt
  | .otherwise o => o.nodes
  | .declare _ vars => vars.flatMap Declared.nodes
  | .passOn _ inner _ outers => .name inner :: outers.map .name
  | .takeFields typed _ => typed.map fun x => .name x.1
  | .repetition test counter _ body => [.expr test, .name counter, .block body]
  | .count counter _ => [.name counter]
  | .flush _ => []

/-- What is left to be run, and what a failure would be about, marks parts of the text. -/
def Task.Marks (text : List Char) : Task → Prop
  | .flush span => span.Fits text
  | t => ∀ n ∈ t.nodes, Anchored text n

/-- The invariant of a run. -/
def Config.Marks {σ : Type} (text : List Char) : Config σ → Prop
  | .running ts m => (∀ t ∈ ts, t.Marks text) ∧ WarnsWell text m
  | .stopped h m => h.Marks text ∧ WarnsWell text m

section

variable {σ : Type} {text : List Char}

theorem anchored_statements {body : Block} (h : Anchored text (.block body)) :
    Task.Marks text (.statements body.body) := fun _ hn => h.child hn

theorem forall_mem_one {t : Task} (h : t.Marks text) : ∀ u ∈ [t], u.Marks text := by
  intro u hu
  rwa [List.mem_singleton.1 hu]

theorem tells_test {test : Expr} {ts us : List Task} (htest : Anchored text (.expr test))
    (hts : ∀ t ∈ ts, t.Marks text) (hus : ∀ t ∈ us, t.Marks text) :
    Tells text (do
      let holds ← Exec.eval fun s => test.evalTruth s
      return if holds then ts else us : Exec σ (List Task)) fun new => ∀ t ∈ new, t.Marks text := by
  refine tells_bind (tells_eval fun s => (Expr.blamed htest s).truth) fun holds _ => ?_
  cases holds with
  | true => exact tells_pure hts
  | false => exact tells_pure hus

/-- A conditional tests, and goes on with its block or with what follows. -/
theorem tells_branch {test : Expr} {body : Block} {rest : Otherwise}
    (h : ∀ n ∈ (.expr test :: .block body :: rest.nodes : List Located), Anchored text n) :
    Tells text (do
      let holds ← Exec.eval fun s => test.evalTruth s
      return if holds then [.statements body.body] else [.otherwise rest] : Exec σ (List Task))
      fun new => ∀ t ∈ new, t.Marks text := by
  refine tells_test (h _ (.head _)) (forall_mem_one ?_) (forall_mem_one ?_)
  · exact anchored_statements (h _ (.tail _ (.head _)))
  · exact fun n hn => h n (.tail _ (.tail _ hn))

variable [Sink σ]

/-- **One step of a task** reports what marks parts of the text, and what is left of the task does so
as well. -/
theorem Task.step_marks {t : Task} (h : t.Marks text) :
    Tells text (t.step : Exec σ (List Task)) fun new => ∀ u ∈ new, u.Marks text := by
  have hnil : ∀ u ∈ ([] : List Task), u.Marks text := fun u hu => absurd hu (by simp)
  -- one case for each equation of `Task.step`; what is left holds children of what there was
  match t with
  | .statement (.declaration _ vars _) =>
      exact tells_pure (forall_mem_one fun n hn => (h _ (.head _)).child hn)
  | .statement (.assignment a) =>
      have ha := (h _ (.head _)).child (k := .assignment a) (.head _)
      have hname : ∀ n ∈ a.targets, Anchored text (.name n) :=
        fun n hn => ha.child (List.mem_append_left _ (List.mem_map_of_mem hn))
      have hvalue : Anchored text (.expr a.value) := ha.child (List.mem_append_right _ (.head _))
      simp only [Task.step]
      cases hrev : a.targets.reverse with
      | nil => exact tells_pure hnil
      | cons innermost outers =>
          have hmem : ∀ n ∈ innermost :: outers, Anchored text (.name n) :=
            fun n hn => hname n (List.mem_reverse.1 (hrev ▸ hn))
          refine tells_bind (tells_assignFirst (hmem _ (.head _)) hvalue) fun x _ => ?_
          refine tells_pure (forall_mem_one fun n hn => ?_)
          obtain ⟨target, htarget, rfl⟩ :=
            List.mem_map.1 (show n ∈ (innermost :: outers).map Located.name from hn)
          exact hmem target htarget
  | .statement (.print items span) =>
      have hs := h _ (.head _)
      have hitems := tells_printItems (σ := σ) hs.fits
        (fun i hi => hs.child (List.mem_map_of_mem hi)) ""
      exact tells_bind hitems fun _ _ => tells_pure hnil
  | .statement (.input names span) =>
      have hs := h _ (.head _)
      have hread := tells_readTyped (σ := σ) hs.fits fun n hn => hs.child (List.mem_map_of_mem hn)
      refine tells_bind hread fun x hx => tells_pure (forall_mem_one fun n hn => ?_)
      obtain ⟨y, hy, rfl⟩ := List.mem_map.1 hn
      exact hx y hy
  | .statement (.conditional _ _ _ _) => exact tells_branch fun n hn => (h _ (.head _)).child hn
  | .statement (.loop first test counter step body _) =>
      have hs := h _ (.head _)
      have hfirst := hs.child (k := .assignment first) (.head _)
      refine tells_pure fun u hu => ?_
      rcases List.mem_cons.1 hu with rfl | hu
      · -- the first assignment of a loop is run as a statement, which is no node of the loop itself
        intro n hn
        rw [List.mem_singleton.1 hn]
        exact .of_children hfirst.fits fun k hk => by rwa [List.mem_singleton.1 hk]
      · rw [List.mem_singleton.1 hu]
        exact fun n hn => hs.child (.tail _ hn)
  | .statements [] => exact tells_pure hnil
  | .statements (s :: ss) =>
      refine tells_pure fun u hu => ?_
      rcases List.mem_cons.1 hu with rfl | hu
      · intro n hn
        rw [List.mem_singleton.1 hn]
        exact h _ (.head _)
      · rw [List.mem_singleton.1 hu]
        exact fun n hn => h n (.tail _ hn)
  | .otherwise .nothing => exact tells_pure hnil
  | .otherwise (.branch _ _ _) => exact tells_branch h
  | .otherwise (.always body) =>
      exact tells_pure (forall_mem_one (anchored_statements (h _ (.head _))))
  | .declare _ [] => exact tells_pure hnil
  | .declare type (d :: vars) =>
      have hd := tells_declareOne (σ := σ) (fun n hn => h n (List.mem_append_left _ hn)) type
      refine tells_bind hd fun _ _ => tells_pure (forall_mem_one fun n hn => ?_)
      exact h n (List.mem_append_right _ hn)
  | .passOn _ _ _ [] => exact tells_pure hnil
  | .passOn value inner innerType (outer :: outers) =>
      have hone := tells_passOnOne (σ := σ) (h _ (.head _)) (h _ (.tail _ (.head _))) value
        innerType
      exact tells_bind hone fun _ _ => tells_pure (forall_mem_one fun n hn => h n (.tail _ hn))
  | .takeFields ((name, type) :: typed) (field :: _) =>
      refine tells_bind (tells_takeField (h _ (.head _)) type field) fun _ _ => ?_
      exact tells_pure (forall_mem_one fun n hn => h n (.tail _ hn))
  | .takeFields [] _ => exact tells_pure hnil
  | .takeFields (_ :: _) [] => exact tells_pure hnil
  | .repetition test counter step body =>
      refine tells_test (h _ (.head _)) (fun u hu => ?_) hnil
      rcases List.mem_cons.1 hu with rfl | hu
      · exact anchored_statements (h _ (.tail _ (.tail _ (.head _))))
      rcases List.mem_cons.1 hu with rfl | hu
      · exact fun n hn => h n (.tail _ (by rw [List.mem_singleton.1 hn]; exact .head _))
      · rw [List.mem_singleton.1 hu]
        exact h
  | .count counter step =>
      exact tells_bind (tells_stepCounter (h _ (.head _)) step) fun _ _ => tells_pure hnil
  | .flush span => exact tells_bind (tells_useSink h _) fun _ _ => tells_pure hnil

/-- One step of a run keeps the invariant. -/
theorem Config.Step.marks {c c' : Config σ} (h : Config.Step c c') (hc : c.Marks text) :
    c'.Marks text := by
  cases h with
  | @proceed t ts new m m' hstep =>
      have ht := Task.step_marks (hc.1 t (.head _)) m hc.2
      rw [hstep] at ht
      refine ⟨fun u hu => ?_, ht.2⟩
      rcases List.mem_append.1 hu with hu | hu
      · exact ht.1 u hu
      · exact hc.1 u (.tail _ hu)
  | @halt t ts e m m' hstep =>
      have ht := Task.step_marks (hc.1 t (.head _)) m hc.2
      rw [hstep] at ht
      exact ht

/-- Any number of steps keep the invariant. -/
theorem Config.Steps.marks {c c' : Config σ} (h : Config.Steps c c') (hc : c.Marks text) :
    c'.Marks text := by
  induction h with
  | refl _ => exact hc
  | head hs _ ih => exact ih (hs.marks hc)

/-- **What a run reports marks parts of the text**, however it ends: its warnings, and the error that it
stops with. -/
theorem Program.exec_tells {p : Program} (hp : Anchored text (.program p)) (fuel : Nat) :
    Tells text (p.exec fuel : Exec σ Unit) fun _ => True := by
  intro m hm
  have hstart : Config.Marks text (.running (p.tasks ++ []) m) := by
    refine ⟨fun t ht => ?_, hm⟩
    rcases List.mem_cons.1 ht with rfl | ht
    · exact fun n hn => hp.child hn
    · rw [List.mem_singleton.1 ht]
      exact hp.fits
  have hleads := realises_program fuel p m
  cases hrun : p.exec fuel m with
  | ok _ m' =>
      rw [hrun] at hleads
      exact ⟨trivial, ((hleads []).marks hstart).2⟩
  | error e m' =>
      rw [hrun] at hleads
      obtain ⟨c, hsteps, rfl, hstopped⟩ := hleads []
      have hc := hsteps.marks hstart
      cases e with
      | error e =>
          rw [hstopped e rfl] at hc
          exact hc
      | outOfFuel =>
          -- the steps go on from here, but the machine is one that they pass through
          exact ⟨trivial, by cases c <;> exact hc.2⟩

end

end BisayaLang
