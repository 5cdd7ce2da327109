/-
**The places of nodes.**

Every node of a program stands where the tokens stand that were read for it: its span goes from the
start of the first of these tokens to the end of the last.  Sometimes the parser gets the end from where
it stopped, sometimes from a part of the node or from the last token; it comes to the same.  What is
read for the children of a node is part of what is read for the node, one behind the other.

Main definitions:

* `BisayaLang.Takes`, `BisayaLang.Cursor.LeadsTo` — the tokens between two cursors;
* `BisayaLang.Located` — a node of a program, of any kind, with its `span` and its `children`;
* `BisayaLang.Stands` — the node is read between two cursors;
* `BisayaLang.Laid` — nodes are read between two cursors, one behind the other;
* `BisayaLang.Within` — a node occurs in another;
* `BisayaLang.ReadFrom`, `BisayaLang.Exact` — a node has the span of its tokens, and its children lie within
  it in order.

Main results:

* `BisayaLang.Stands.span_eq` — the span of a node is that of the tokens read for it;
* `BisayaLang.Stands.children` — the children of a node stand within it, in order;
* `BisayaLang.spans_of_nodes_exact` — **every node of a parsed program has the span of its tokens**.
-/

import BisayaLang.Proofs.Grammar.Adequacy
import BisayaLang.Proofs.Token.Faults
import BisayaLang.Proofs.Token.Narrow

set_option relaxedAutoImplicit false
set_option autoImplicit false

namespace BisayaLang

open Climb

/-! ### The tokens between two cursors -/

/-- Reading the tokens `run` leads from the first cursor to the second. -/
structure Takes (c : Cursor) (run : List Spanned) (d : Cursor) : Prop where
  tokens : c.tokens = run ++ d.tokens
  lastEnd : d.lastEnd = (run.getLast?.map fun t => t.span.stop).getD c.lastEnd

theorem Takes.trans {c m d : Cursor} {run run' : List Spanned} (h : Takes c run m)
    (h' : Takes m run' d) : Takes c (run ++ run') d := by
  refine ⟨by rw [h.tokens, h'.tokens, List.append_assoc], ?_⟩
  rw [h'.lastEnd, h.lastEnd, List.getLast?_append]
  cases run'.getLast? <;> rfl

namespace Cursor

/-- The second cursor is come to from the first by reading tokens. -/
def LeadsTo (c d : Cursor) : Prop := ∃ run, Takes c run d

theorem LeadsTo.refl (c : Cursor) : c.LeadsTo c := ⟨[], rfl, rfl⟩

theorem LeadsTo.trans {c m d : Cursor} (h : c.LeadsTo m) (h' : m.LeadsTo d) : c.LeadsTo d := by
  obtain ⟨run, hrun⟩ := h
  obtain ⟨run', hrun'⟩ := h'
  exact ⟨run ++ run', hrun.trans hrun'⟩

theorem leadsTo_step (c : Cursor) : c.LeadsTo c.step := by
  rcases c with ⟨_ | ⟨t, rest⟩, lastEnd⟩
  · exact .refl _
  · exact ⟨[t], rfl, rfl⟩

theorem LeadsTo.step {c d : Cursor} (h : c.LeadsTo d) : c.LeadsTo d.step :=
  h.trans d.leadsTo_step

/-- Behind a token that is not the end the last token ends where that token does. -/
theorem lastEnd_step {c : Cursor} (h : c.current ≠ .eof) : c.step.lastEnd = c.span.stop := by
  obtain ⟨t, rest, -, -, hspan, hstep⟩ := tokens_of_current h
  rw [hstep, ← hspan]

end Cursor

/-- The tokens stand one behind the other. -/
structure InOrder (tokens : List Spanned) : Prop where
  apart : tokens.Pairwise fun t u => t.span.stop ≤ u.span.start
  forward : ∀ t ∈ tokens, t.span.start ≤ t.span.stop

theorem InOrder.back {front back : List Spanned} (h : InOrder (front ++ back)) : InOrder back :=
  ⟨(List.pairwise_append.1 h.apart).2.1, fun t ht => h.forward t (List.mem_append_right _ ht)⟩

theorem InOrder.leadsTo {c d : Cursor} (h : InOrder c.tokens) (hcd : c.LeadsTo d) :
    InOrder d.tokens := by
  obtain ⟨run, hrun⟩ := hcd
  rw [hrun.tokens] at h
  exact h.back

/-- The next token starts no earlier than one that was read before it. -/
theorem InOrder.start_le {c d : Cursor} (h : InOrder c.tokens) (hcd : c.LeadsTo d)
    (hd : d.tokens ≠ []) : c.span.start ≤ d.span.start := by
  obtain ⟨run, htokens, -⟩ := hcd
  obtain ⟨u, back, hu⟩ := List.exists_cons_of_ne_nil hd
  have hspan : d.span = u.span := by
    unfold Cursor.span
    rw [hu]
  cases run with
  | nil =>
      have hc : c.span = u.span := by
        unfold Cursor.span
        rw [htokens, List.nil_append, hu]
      exact Nat.le_of_eq (by rw [hc, hspan])
  | cons t run =>
      have hc : c.span = t.span := by
        unfold Cursor.span
        rw [htokens, List.cons_append]
      rw [htokens, hu] at h
      have happart := (List.pairwise_cons.1 h.apart).1 u (by simp)
      have hforward := h.forward t (by simp)
      rw [hc, hspan]
      omega

/-- The tokens read for a node end no later than those read after it, and before the next one. -/
theorem InOrder.lastEnd_le {c m d : Cursor} (h : InOrder c.tokens) {run : List Spanned}
    (hcm : Takes c run m) (hne : run ≠ []) (hmd : m.LeadsTo d) :
    m.lastEnd ≤ d.lastEnd ∧ (d.tokens ≠ [] → m.lastEnd ≤ d.span.start) := by
  obtain ⟨run', hrun'⟩ := hmd
  obtain ⟨last, hlast⟩ : ∃ last, run.getLast? = some last := by
    cases hl : run.getLast? with
    | none => exact absurd (List.getLast?_eq_none_iff.1 hl) hne
    | some last => exact ⟨last, rfl⟩
  have hmem : last ∈ run := List.mem_of_getLast? hlast
  have hm : m.lastEnd = last.span.stop := by rw [hcm.lastEnd, hlast]; rfl
  have hbefore : ∀ u ∈ run' ++ d.tokens, last.span.stop ≤ u.span.start := by
    have hpair := h.apart
    rw [hcm.tokens, hrun'.tokens] at hpair
    exact fun u hu => (List.pairwise_append.1 hpair).2.2 last hmem u hu
  refine ⟨?_, fun hd => ?_⟩
  · rw [hrun'.lastEnd]
    cases hl : run'.getLast? with
    | none => exact Nat.le_refl _
    | some u =>
        have hu := List.mem_of_getLast? hl
        have hle := hbefore u (List.mem_append_left _ hu)
        have hforward := h.forward u (by
          rw [hcm.tokens, hrun'.tokens]
          exact List.mem_append_right _ (List.mem_append_left _ hu))
        rw [hm]
        exact Nat.le_trans hle hforward
  · obtain ⟨u, back, hu⟩ := List.exists_cons_of_ne_nil hd
    have hspan : d.span = u.span := by
      unfold Cursor.span
      rw [hu]
    rw [hm, hspan]
    exact hbefore u (by rw [hu]; simp)

/-! ### What is read leads on -/

theorem NameReads.leadsTo {c d : Cursor} {n : Name} (h : NameReads c n d) : c.LeadsTo d := by
  obtain ⟨-, -, rfl⟩ := h
  exact c.leadsTo_step

theorem Reads.leadsTo {min : Nat} {c d : Cursor} {e : Expr} (h : Reads min c e d) :
    c.LeadsTo d := by
  induction h with
  | atom _ => exact Cursor.leadsTo_step _
  | unary _ _ _ ih => exact (Cursor.leadsTo_step _).trans ih
  | group _ _ _ ih => exact ((Cursor.leadsTo_step _).trans ih).step
  | binary _ _ _ _ _ ihl ihr => exact ihl.step.trans ihr

/-! ### Nodes -/

/-- A node of a program. -/
inductive Located where
  | program (p : Program)
  | block (b : Block)
  | stmt (s : Stmt)
  | assignment (a : Assignment)
  | expr (e : Expr)
  | name (n : Name)
  | item (i : PrintItem)

/-- The part of the source that a print item was read from. -/
def PrintItem.span : PrintItem → Span
  | .text _ span => span
  | .var name => name.span
  | .expr e => e.span
  | .lineBreak span => span

/-- The nodes of a declared variable. -/
def Declared.nodes (v : Declared) : List Located := .name v.name :: v.value.toList.map .expr

/-- The nodes of an assignment: its targets and its value. -/
def Assignment.nodes (a : Assignment) : List Located := a.targets.map .name ++ [.expr a.value]

/-- The tests and blocks of the later branches of a conditional. -/
def Otherwise.nodes : Otherwise → List Located
  | .nothing => []
  | .branch test body rest => .expr test :: .block body :: rest.nodes
  | .always body => [.block body]

namespace Located

/-- The part of the source that a node was read from. -/
def span : Located → Span
  | .program p => p.span
  | .block b => b.span
  | .stmt s => s.span
  | .assignment a => a.span
  | .expr e => e.span
  | .name n => n.span
  | .item i => i.span

/-- The nodes that a node is made of, in the order of the source. -/
def children : Located → List Located
  | .program p => p.body.map .stmt
  | .block b => b.body.map .stmt
  | .stmt (.declaration _ vars _) => vars.flatMap Declared.nodes
  | .stmt (.assignment a) => [.assignment a]
  | .stmt (.print items _) => items.map .item
  | .stmt (.input names _) => names.map .name
  | .stmt (.conditional test body rest _) => .expr test :: .block body :: rest.nodes
  | .stmt (.loop first test counter _ body _) =>
      [.assignment first, .expr test, .name counter, .block body]
  | .assignment a => a.nodes
  | .expr (.var n) => [.name n]
  | .expr (.number ..) | .expr (.bool ..) | .expr (.text ..) => []
  | .expr (.unary _ e _) | .expr (.group e _) => [.expr e]
  | .expr (.binary _ l r _) => [.expr l, .expr r]
  | .name _ => []
  | .item (.var n) => [.name n]
  | .item (.expr e) => [.expr e]
  | .item (.text ..) | .item (.lineBreak _) => []

end Located

/-- A print item is read between two cursors: it is one token, or an expression. -/
def ItemReads (c : Cursor) (i : PrintItem) (d : Cursor) : Prop :=
  ∃ escaped, (Parse.itemRule escaped c = .item i ∧ d = c.step) ∨
    (Parse.itemRule escaped c = .expression ∧ ∃ e, i = .expr e ∧ Parse.expression c = .ok e d)

/-- The parser reads the node between two cursors.  An expression can be part of a larger one there. -/
def Stands (c : Cursor) (n : Located) (d : Cursor) : Prop :=
  match n with
  | .program p => Parse.program c = .ok p d
  | .block b => Parse.block c = .ok b d
  | .stmt s => Parse.statement c = .ok s d
  | .assignment a => Parse.assignment c = .ok a d
  | .expr e => ∃ min, Reads min c e d
  | .name n => Parse.name c = .ok n d
  | .item i => ItemReads c i d

/-- The node occurs in the root. -/
inductive Within (root : Located) : Located → Prop
  | root : Within root root
  | child {n m : Located} : Within root n → m ∈ n.children → Within root m

/-! ### Nodes one behind the other -/

/-- Nodes are read between two cursors, one behind the other. -/
inductive Laid : Cursor → List Located → Cursor → Prop
  | nil {c d : Cursor} : c.LeadsTo d → Laid c [] d
  | cons {c m m' d : Cursor} {n : Located} {ns : List Located} : c.LeadsTo m → Stands m n m' →
      m.LeadsTo m' → Laid m' ns d → Laid c (n :: ns) d

namespace Laid

variable {c m d : Cursor} {ns ns' : List Located}

theorem single {n : Located} (h : Stands c n d) (hl : c.LeadsTo d) : Laid c [n] d :=
  .cons (.refl c) h hl (.nil (.refl d))

theorem leadsTo (h : Laid c ns d) : c.LeadsTo d := by
  induction h with
  | nil hl => exact hl
  | cons hl _ hn _ ih => exact (hl.trans hn).trans ih

theorem before (hl : c.LeadsTo m) (h : Laid m ns d) : Laid c ns d := by
  cases h with
  | nil hl' => exact .nil (hl.trans hl')
  | cons hl' hn hn' hns => exact .cons (hl.trans hl') hn hn' hns

theorem append (h : Laid c ns m) (h' : Laid m ns' d) : Laid c (ns ++ ns') d := by
  induction h with
  | nil hl => exact h'.before hl
  | cons hl hn hn' _ ih => exact .cons hl hn hn' (ih h')

theorem after (h : Laid c ns m) (hl : m.LeadsTo d) : Laid c ns d := by
  have happ := h.append (.nil hl)
  rwa [List.append_nil] at happ

theorem step (h : Laid c ns d) : Laid c ns d.step := h.after d.leadsTo_step

end Laid

theorem NameReads.laid {c d : Cursor} {n : Name} (h : NameReads c n d) : Laid c [.name n] d :=
  .single (Parse.name_eq_ok.2 h) h.leadsTo

theorem Reads.laid {min : Nat} {c d : Cursor} {e : Expr} (h : Reads min c e d) :
    Laid c [.expr e] d := .single ⟨min, h⟩ h.leadsTo

theorem DeclaredReads.laid {c d : Cursor} {v : Declared} (h : DeclaredReads c v d) :
    Laid c v.nodes d := by
  cases h with
  | plain hn _ => exact hn.laid
  | value hn _ he => exact hn.laid.step.append he.1.laid

theorem TargetReads.laid {c d : Cursor} {n : Name} (h : TargetReads c n d) :
    Laid c [.name n] d := by
  obtain ⟨hn, -, rfl⟩ := h
  exact hn.laid.step

theorem Many.laid {α : Type} {more : Cursor → Bool} {R : Cursor → α → Cursor → Prop}
    {nodes : α → List Located} (hR : ∀ c a d, R c a d → Laid c (nodes a) d) {c d : Cursor}
    {as : List α} (h : Many more R c as d) : Laid c (as.flatMap nodes) d := by
  induction h with
  | nil _ => exact .nil (.refl _)
  | cons _ ha _ ih =>
      rw [List.flatMap_cons]
      exact (hR _ _ _ ha).append ih

theorem CommaList.laid {α : Type} {R : Cursor → α → Cursor → Prop} {nodes : α → List Located}
    (hR : ∀ c a d, R c a d → Laid c (nodes a) d) {c d : Cursor} {as : List α}
    (h : CommaList R c as d) : Laid c (as.flatMap nodes) d := by
  obtain ⟨ha, has⟩ := h
  rw [List.flatMap_cons]
  refine (hR _ _ _ ha).append (has.laid fun c a d h => ?_)
  exact (hR _ _ _ h).before c.leadsTo_step

theorem flatMap_singleton_map {α : Type} (f : α → Located) (as : List α) :
    as.flatMap (fun a => [f a]) = as.map f := by
  induction as with
  | nil => rfl
  | cons a as ih =>
      rw [List.flatMap_cons, ih]
      rfl

theorem AssignmentReads.laid {c d : Cursor} {a : Assignment} (h : AssignmentReads c a d) :
    Laid c a.nodes d := by
  obtain ⟨ht, hts, he⟩ := h
  have htargets := hts.laid fun _ _ _ h => h.laid
  rw [flatMap_singleton_map] at htargets
  exact (ht.laid.append htargets).append he.1.laid

theorem TestReads.laid {c d : Cursor} {e : Expr} (h : TestReads c e d) : Laid c [.expr e] d := by
  obtain ⟨-, he, -⟩ := h
  exact (he.1.laid.before c.leadsTo_step).step

theorem LoopHead.laid {c d : Cursor} {first : Assignment} {test : Expr} {counter : Name}
    {step : Step} (h : LoopHead c first test counter step d) :
    Laid c [.assignment first, .expr test, .name counter] d := by
  obtain ⟨-, -, -, ha, -, he, -, hn, -, -, rfl⟩ := h
  have hfirst : Laid c [.assignment first] _ :=
    (Laid.single (n := .assignment first) (Parse.assignment_eq_ok.2 ha) ha.laid.leadsTo).before
      ((c.leadsTo_step.trans (Cursor.leadsTo_step _)).trans (Cursor.leadsTo_step _))
  exact (hfirst.step.append (he.1.laid.step.append hn.laid)).step.step

theorem Items.laid {escaped : Bool} {c d : Cursor} {is : List PrintItem}
    (h : Items escaped c is d) : Laid c (is.map .item) d := by
  induction h with
  | stop _ => exact .nil (.refl _)
  | escape _ _ ih => exact ih.before (Cursor.leadsTo_step _)
  | skip _ _ ih => exact ih.before (Cursor.leadsTo_step _)
  | item hi _ ih =>
      exact .cons (.refl _) ⟨_, .inl ⟨hi, rfl⟩⟩ (Cursor.leadsTo_step _) ih
  | expression hi he _ ih =>
      exact .cons (.refl _) ⟨_, .inr ⟨hi, _, rfl, Parse.expression_eq_ok.2 he⟩⟩ he.1.leadsTo ih

theorem block_eq_ok {c d : Cursor} {b : Block} :
    Parse.block c = .ok b d ↔ Derives c (.block b) d :=
  Parse.blockOf_eq_ok (fun _ hc _ _ => Parse.statementF_eq_ok hc) (Nat.le_refl _)

/-- The nodes that are read for a statement, a block, later branches or a body. -/
def Node.inner : Node → List Located
  | .stmt s => (Located.stmt s).children
  | .block b => (Located.block b).children
  | .rest o => o.nodes
  | .body _ ss => ss.map .stmt

/-- **The nodes in a statement are read one behind the other.** -/
theorem Derives.laid {c d : Cursor} {n : Node} (h : Derives c n d) : Laid c n.inner d := by
  have hblock : ∀ {c d : Cursor} {b : Block}, Derives c (.block b) d →
      Laid c (Node.block b).inner d → Laid c [.block b] d :=
    fun hb ih => .single (block_eq_ok.2 hb) ih.leadsTo
  have htwo : ∀ c : Cursor, c.LeadsTo c.step.step := fun c => c.leadsTo_step.step
  induction h with
  | @declaration c _ _ _ _ _ hv => exact (hv.laid fun _ _ _ h => h.laid).before (htwo c)
  | assignment ha => exact .single (Parse.assignment_eq_ok.2 ha) ha.laid.leadsTo
  | @print c _ _ _ _ hi => exact hi.laid.before (htwo c)
  | @input c _ _ _ _ hn =>
      have hnames := hn.laid fun _ _ _ h => h.laid
      rw [flatMap_singleton_map] at hnames
      exact hnames.before (htwo c)
  | @conditional c _ _ _ _ _ _ _ ht hb _ ihb ihr =>
      exact ((ht.laid.before c.leadsTo_step).append (hblock hb ihb)).append ihr
  | loop hh hb ih => exact hh.laid.append (hblock hb ih)
  | @block c _ _ _ _ _ _ ih => exact (ih.before (htwo c)).step
  | nothing _ _ => exact .nil (.refl _)
  | @branch c _ _ _ _ _ _ _ ht hb _ ihb ihr =>
      exact ((ht.laid.before (htwo c)).append (hblock hb ihb)).append ihr
  | @always c _ _ _ hb ih => exact (hblock hb ih).before (htwo c)
  | nil _ => exact .nil (.refl _)
  | cons _ hs _ ihs ihb =>
      exact (Laid.single (n := .stmt _) (Parse.statement_eq_ok.2 hs) ihs.leadsTo).append ihb

/-- What is read from one token is a name, or has no children. -/
def Single (c : Cursor) (n : Located) : Prop :=
  c.current ≠ .eof ∧ n.span = c.span ∧
    ((∃ text, c.current = .name text ∧ n.children = [.name ⟨text, c.span⟩]) ∨ n.children = [])

theorem Single.laid {c : Cursor} {n : Located} (h : Single c n) : Laid c n.children c.step := by
  obtain ⟨-, -, ⟨text, hc, hn⟩ | hn⟩ := h
  · rw [hn]
    exact NameReads.laid ⟨hc, rfl, rfl⟩
  · rw [hn]
    exact .nil c.leadsTo_step

theorem lead?_single {c : Cursor} {e : Expr} (h : lead? c = some (.atom e)) :
    Single c (.expr e) := by
  refine ⟨fun he => absurd (lead?_eof he) (by simp [h]), ?_⟩
  unfold lead? at h
  split at h
  case h_1 | h_2 =>
      obtain ⟨x, -, hx⟩ := Option.map_eq_some_iff.1 h
      cases hx
      exact ⟨rfl, .inr rfl⟩
  case h_5 =>
      split at h
      · cases h
      · cases h
        exact ⟨rfl, .inr rfl⟩
  case h_7 text hc =>
      cases h
      exact ⟨rfl, .inl ⟨text, hc, rfl⟩⟩
  all_goals
      cases h
      try exact ⟨rfl, .inr rfl⟩

theorem itemRule_single {escaped : Bool} {c : Cursor} {i : PrintItem}
    (h : Parse.itemRule escaped c = .item i) : Single c (.item i) := by
  refine ⟨fun he => ?_, ?_⟩
  · rw [Parse.itemRule_eof he] at h
    cases h
  unfold Parse.itemRule at h
  simp only at h
  split at h <;> repeat' split at h
  all_goals
      cases h
      try exact ⟨rfl, .inr rfl⟩
  -- the one item left is a variable
  rename_i text hc _ _ _
  exact ⟨rfl, .inl ⟨text, hc, rfl⟩⟩

/-- **The children of a node stand within it, in order.** -/
theorem Stands.children {c d : Cursor} {n : Located} (h : Stands c n d) : Laid c n.children d := by
  cases n with
  | program p =>
      obtain ⟨-, hss, -⟩ := program_eq_ok.1 h
      exact (hss.laid.before c.leadsTo_step).step
  | block b => exact (block_eq_ok.1 h).laid
  | stmt s => exact (Parse.statement_eq_ok.1 h).laid
  | assignment a => exact (Parse.assignment_eq_ok.1 h).laid
  | expr e =>
      obtain ⟨min, hr⟩ := h
      cases hr with
      | atom hl => exact (lead?_single hl).laid
      | unary _ he _ => exact he.laid.before c.leadsTo_step
      | group _ he _ => exact (he.laid.before c.leadsTo_step).step
      | binary hl _ _ hr _ => exact hl.laid.step.append hr.laid
  | name n => exact .nil (Parse.name_eq_ok.1 h).leadsTo
  | item i =>
      obtain ⟨escaped, ⟨hi, rfl⟩ | ⟨-, e, rfl, he⟩⟩ := h
      · exact (itemRule_single hi).laid
      · exact (Parse.expression_eq_ok.1 he).1.laid

theorem Stands.leadsTo {c d : Cursor} {n : Located} (h : Stands c n d) : c.LeadsTo d :=
  h.children.leadsTo

/-- Every node takes a token. -/
theorem Stands.length_lt {c d : Cursor} {n : Located} (h : Stands c n d) :
    d.tokens.length < c.tokens.length := by
  cases n with
  | program p =>
      obtain ⟨hc, hss, -⟩ := program_eq_ok.1 h
      rename_i m _
      have h₁ := Cursor.length_step_lt (c := c) (by simp [hc])
      have h₂ := hss.length_le
      have h₃ := length_step_le m
      simp only [Node.leastTokens] at h₂
      omega
  | block b => exact (block_eq_ok.1 h).length_le
  | stmt s => exact (Parse.statement_eq_ok.1 h).length_le
  | assignment a => exact (Parse.assignment_eq_ok.1 h).length_lt
  | expr e =>
      obtain ⟨min, hr⟩ := h
      exact hr.length_lt
  | name n => exact (Parse.name_eq_ok.1 h).length_lt
  | item i =>
      obtain ⟨escaped, ⟨hi, rfl⟩ | ⟨-, e, rfl, he⟩⟩ := h
      · exact Cursor.length_step_lt (itemRule_single hi).1
      · exact (Parse.expression_eq_ok.1 he).length_lt

theorem Stands.tokens_ne_nil {c d : Cursor} {n : Located} (h : Stands c n d) : c.tokens ≠ [] := by
  intro hnil
  have hlt := h.length_lt
  rw [hnil] at hlt
  exact absurd hlt (by simp)

theorem Cursor.LeadsTo.exists_run {c d : Cursor} (h : c.LeadsTo d)
    (hlt : d.tokens.length < c.tokens.length) : ∃ run, run ≠ [] ∧ Takes c run d := by
  obtain ⟨run, hrun⟩ := h
  refine ⟨run, ?_, hrun⟩
  rintro rfl
  rw [hrun.tokens] at hlt
  exact absurd hlt (by simp)

/-! ### The span of a node -/

theorem Single.span_eq {c : Cursor} {n : Located} (h : Single c n) :
    n.span = ⟨c.span.start, c.step.lastEnd⟩ := by
  rw [h.2.1, Cursor.lastEnd_step h.1]

/-- The span of an expression is that of the tokens read for it.  The parts of a binary expression are
covered in full because the tokens stand in order. -/
theorem Reads.span_eq {min : Nat} {c d : Cursor} {e : Expr} (h : Reads min c e d)
    (ho : InOrder c.tokens) : e.span = ⟨c.span.start, d.lastEnd⟩ := by
  induction h with
  | atom hl => exact (lead?_single hl).span_eq
  | @unary _ c d _ e _ _ _ ih =>
      have he := ih (ho.leadsTo c.leadsTo_step)
      show Span.mk c.span.start e.span.stop = _
      rw [he]
  | @group _ c d b e _ _ hcl _ =>
      show Span.mk c.span.start d.span.stop = _
      rw [Cursor.lastEnd_step (c := d) (hcl ▸ closing_ne_eof b)]
  | @binary _ c d d' _ l r hl _ _ hr _ ihl ihr =>
      have hright := hl.leadsTo.step
      have hspan := ihl ho
      have hspan' := ihr (ho.leadsTo hright)
      have hne : d.step.tokens ≠ [] := Stands.tokens_ne_nil (n := .expr r) ⟨_, hr⟩
      obtain ⟨run, hrun, htakes⟩ := hl.leadsTo.exists_run hl.length_lt
      have hstart := ho.start_le hright hne
      have hstop := (ho.lastEnd_le htakes hrun (d.leadsTo_step.trans hr.leadsTo)).1
      show l.span.cover r.span = _
      rw [hspan, hspan']
      unfold Span.cover
      simp only [Nat.min_eq_left hstart, Nat.max_eq_right hstop]

theorem NameReads.span_eq {c d : Cursor} {n : Name} (h : NameReads c n d) :
    n.span = ⟨c.span.start, d.lastEnd⟩ := by
  obtain ⟨hc, hspan, rfl⟩ := h
  rw [hspan, Cursor.lastEnd_step (by simp [hc])]

theorem AssignmentReads.span_eq {c d : Cursor} {a : Assignment} (h : AssignmentReads c a d)
    (ho : InOrder c.tokens) : a.span = ⟨c.span.start, d.lastEnd⟩ := by
  obtain ⟨ht, hts, he⟩ := h
  have hvalue := ho.leadsTo (ht.laid.append (hts.laid fun _ _ _ h => h.laid)).leadsTo
  rw [he.1.span_eq hvalue, ht.1.2.1]

theorem Derives.block_span_eq {c d : Cursor} {b : Block} (h : Derives c (.block b) d) :
    b.span = ⟨c.span.start, d.lastEnd⟩ := by
  cases h with
  | @block c m ss _ _ _ hm =>
      rw [Cursor.lastEnd_step (c := m) (by simp [hm])]
      rfl

/-- **The span of a node is that of the tokens read for it.** -/
theorem Stands.span_eq {c d : Cursor} {n : Located} (h : Stands c n d) (ho : InOrder c.tokens) :
    n.span = ⟨c.span.start, d.lastEnd⟩ := by
  cases n with
  | program p =>
      obtain ⟨-, -, hm⟩ := program_eq_ok.1 h
      rw [Cursor.lastEnd_step (by simp [hm])]
      rfl
  | block b => exact (block_eq_ok.1 h).block_span_eq
  | stmt s =>
      cases Parse.statement_eq_ok.1 h with
      | declaration _ _ _ | print _ _ _ | input _ _ _ | conditional _ _ _ _ => rfl
      | assignment ha => exact ha.span_eq ho
      | loop hh hb =>
          show Span.mk c.span.start _ = _
          rw [hb.block_span_eq]
  | assignment a => exact (Parse.assignment_eq_ok.1 h).span_eq ho
  | expr e =>
      obtain ⟨min, hr⟩ := h
      exact hr.span_eq ho
  | name n => exact (Parse.name_eq_ok.1 h).span_eq
  | item i =>
      obtain ⟨escaped, ⟨hi, rfl⟩ | ⟨-, e, rfl, he⟩⟩ := h
      · exact (itemRule_single hi).span_eq
      · exact (Parse.expression_eq_ok.1 he).1.span_eq ho

/-! ### All nodes of a program -/

theorem Laid.mem {c d : Cursor} {ns : List Located} (h : Laid c ns d) {n : Located} (hn : n ∈ ns) :
    ∃ m m', c.LeadsTo m ∧ Stands m n m' ∧ m'.LeadsTo d := by
  induction h with
  | nil _ => exact absurd hn (by simp)
  | @cons c m m' d k ns hl hk hk' hns ih =>
      rcases List.mem_cons.1 hn with rfl | hn
      · exact ⟨m, m', hl, hk, hns.leadsTo⟩
      · obtain ⟨m₁, m₂, hl', hstands, hback⟩ := ih hn
        exact ⟨m₁, m₂, (hl.trans hk').trans hl', hstands, hback⟩

/-- Nodes that are read one behind the other lie in order, between the cursors. -/
theorem Laid.ordered {c d : Cursor} {ns : List Located} (h : Laid c ns d) (ho : InOrder c.tokens) :
    ns.Pairwise fun a b => a.span.stop ≤ b.span.start := by
  induction h with
  | nil _ => exact .nil
  | @cons c m m' d n ns hl hn hn' hns ih =>
      have hm := ho.leadsTo hl
      refine .cons (fun k hk => ?_) (ih (hm.leadsTo hn'))
      obtain ⟨m₁, m₂, hl', hk', -⟩ := hns.mem hk
      obtain ⟨run, hne, hrun⟩ := hn'.exists_run hn.length_lt
      rw [hn.span_eq hm, hk'.span_eq (hm.leadsTo (hn'.trans hl'))]
      exact (hm.lastEnd_le hrun hne hl').2 hk'.tokens_ne_nil

theorem Stands.contains {c d : Cursor} {n k : Located} (h : Stands c n d) (ho : InOrder c.tokens)
    (hk : k ∈ n.children) : n.span.start ≤ k.span.start ∧ k.span.stop ≤ n.span.stop := by
  obtain ⟨m, m', hl, hk', hback⟩ := h.children.mem hk
  have hm := ho.leadsTo hl
  obtain ⟨run, hne, hrun⟩ := hk'.leadsTo.exists_run hk'.length_lt
  rw [h.span_eq ho, hk'.span_eq hm]
  exact ⟨ho.start_le hl hk'.tokens_ne_nil, (hm.lastEnd_le hrun hne hback).1⟩

/-- **Every node that occurs in a node is read on the way.**  One step goes to a child. -/
theorem Within.stands {c d : Cursor} {root n : Located} (h : Within root n) (hr : Stands c root d) :
    ∃ m m', c.LeadsTo m ∧ Stands m n m' := by
  induction h with
  | root => exact ⟨c, d, .refl c, hr⟩
  | child _ hmem ih =>
      obtain ⟨m, m', hl, hn⟩ := ih
      obtain ⟨k, k', hl', hk, -⟩ := hn.children.mem hmem
      exact ⟨k, k', hl.trans hl', hk⟩

/-- The span of a node goes from the start of the first to the end of the last of the tokens that are
read for it, which stand one behind the other in the list. -/
def ReadFrom (tokens : List Spanned) (n : Located) : Prop :=
  ∃ before run after first last c d, tokens = before ++ run ++ after ∧
    c.tokens = run ++ after ∧ d.tokens = after ∧ Stands c n d ∧
    run.head? = some first ∧ run.getLast? = some last ∧
    n.span = ⟨first.span.start, last.span.stop⟩

theorem Stands.readFrom {tokens : List Spanned} {c d : Cursor} {n : Located} (h : Stands c n d)
    (hl : (Cursor.start tokens).LeadsTo c) (ho : InOrder tokens) : ReadFrom tokens n := by
  obtain ⟨before, hbefore⟩ := hl
  obtain ⟨run, hne, hrun⟩ := h.leadsTo.exists_run h.length_lt
  obtain ⟨first, back, rfl⟩ := List.exists_cons_of_ne_nil hne
  have hspan := h.span_eq (InOrder.leadsTo ho ⟨before, hbefore⟩)
  refine ⟨before, first :: back, d.tokens, first, (first :: back).getLast hne, c, d, ?_, hrun.tokens,
    rfl, h, rfl, List.getLast?_eq_some_getLast hne, ?_⟩
  · rw [List.append_assoc, ← hrun.tokens]
    exact hbefore.tokens
  · have hfirst : c.span = first.span := by
      unfold Cursor.span
      rw [hrun.tokens, List.cons_append]
    rw [hspan, hfirst, hrun.lastEnd, List.getLast?_eq_some_getLast hne]
    rfl

theorem Tiling.inOrder {text : List Char} {tokens : List Spanned}
    (h : Tiling false 0 text tokens) : InOrder tokens := ⟨h.ordered, fun t ht => (h.fits t ht).le⟩

/-- The tokens of a program that is parsed, and the program among them. -/
theorem parseProgram_stands {text : String} {p : Parsed} (h : parseProgram text = .ok p) :
    ∃ tokens d, tokenize text = .ok tokens ∧ Tiling false 0 text.toList tokens ∧
      Stands (.start tokens) (.program p.program) d ∧ p.trailing = d.trailing := by
  obtain ⟨tokens, htokens, hp⟩ := parseProgram_eq_ok.1 h
  obtain ⟨d, hd, htrailing⟩ := parseTokens_eq_ok.1 hp
  obtain ⟨herror, rfl⟩ := Scan.result_eq_ok.1 htokens
  exact ⟨_, d, htokens, tiling_of_scan (.start text.toList) herror, program_eq_ok.2 hd, htrailing⟩

/-- The node stands where the tokens stand that were read for it, with its children within it and one
behind the other. -/
structure Exact (tokens : List Spanned) (n : Located) : Prop where
  readFrom : ReadFrom tokens n
  contains : ∀ k ∈ n.children, n.span.start ≤ k.span.start ∧ k.span.stop ≤ n.span.stop
  ordered : n.children.Pairwise fun a b => a.span.stop ≤ b.span.start

/-- **Every node of a parsed program has the span of the tokens that were read for it**, if offsets of 32
bits have room for the text.  So its children lie within it, and one behind the other. -/
theorem spans_of_nodes_exact {text : String} {p : Parsed} (hsize : text.utf8ByteSize < UInt32.size)
    (h : parseNarrow text = .ok p) :
    parseProgram text = .ok p ∧ ∃ tokens, tokenizeNarrow text = .ok tokens ∧
      ∀ n, Within (.program p.program) n → Exact tokens n := by
  rw [parseNarrow_eq hsize] at h
  rw [tokenizeNarrow_eq hsize]
  obtain ⟨tokens, d, htokens, htiling, hp, -⟩ := parseProgram_stands h
  refine ⟨h, tokens, htokens, fun n hn => ?_⟩
  obtain ⟨m, m', hl, hstands⟩ := hn.stands hp
  have ho := InOrder.leadsTo (c := .start tokens) htiling.inOrder hl
  exact ⟨hstands.readFrom hl htiling.inOrder, fun k hk => hstands.contains ho hk,
    hstands.children.ordered ho⟩

theorem exists_of_isOk (text : String) (h : (parseProgram text).isOk = true) :
    ∃ p, parseProgram text = .ok p := by
  cases hp : parseProgram text with
  | ok p => exact ⟨p, rfl⟩
  | error e =>
      rw [hp] at h
      cases h

/-- An assignment, and a conditional with a print statement. -/
theorem spans_of_nodes_exact_conditional :
    let text := "SUGOD x = -y KUNG (x < 1) PUNDOK \x7b IPAKITA: x & $ \x7d KATAPUSAN"
    text.utf8ByteSize < UInt32.size ∧ ∃ p, parseNarrow text = .ok p ∧ parseProgram text = .ok p ∧
      ∃ tokens, tokenizeNarrow text = .ok tokens ∧
        ∀ n, Within (.program p.program) n → Exact tokens n := by
  intro text
  have hsize : text.utf8ByteSize < UInt32.size := by decide +kernel
  obtain ⟨p, hp⟩ := exists_of_isOk text (by decide +kernel)
  rw [← parseNarrow_eq hsize] at hp
  exact ⟨hsize, p, hp, spans_of_nodes_exact hsize hp⟩

/-- The tokens of a text whose `+` is the last byte before the offset 2 ^ 32. -/
def wrappedTokens : List Spanned :=
  [⟨⟨0, 5⟩, .word .sugod⟩, ⟨⟨6, 7⟩, .name "x"⟩, ⟨⟨8, 9⟩, .mark .assign⟩, ⟨⟨10, 11⟩, .name "y"⟩,
    ⟨⟨4294967295, 0⟩, .op (.arithmetic .add)⟩, ⟨⟨1, 2⟩, .name "z"⟩, ⟨⟨3, 12⟩, .word .katapusan⟩,
    ⟨.point 12, .eof⟩]

/-- Behind so many blanks the offsets start again from zero. -/
theorem tokenizeNarrow_wrapped :
    tokenizeNarrow ("SUGOD x = y " ++ String.ofList (List.replicate (UInt32.size - 13) ' ') ++
      "+ z KATAPUSAN") = .ok wrappedTokens := by
  have hfront : ∀ behind : List Char, (NarrowScanner.start ("SUGOD x = y ".toList ++ behind)).scan =
      (wrappedTokens.take 4 ++ ·) <$> NarrowScanner.scan ⟨' ' :: behind, 11, some 11⟩ := by
    intro behind
    have hsugod : (NarrowScanner.start ("SUGOD x = y ".toList ++ behind)).next =
        .ok (⟨⟨0, 5⟩, .word .sugod⟩, ⟨" x = y ".toList ++ behind, 5, none⟩) := rfl
    have htarget : (NarrowScanner.mk (" x = y ".toList ++ behind) 5 none).next =
        .ok (⟨⟨6, 7⟩, .name "x"⟩, ⟨" = y ".toList ++ behind, 7, some 7⟩) := rfl
    have hassign : (NarrowScanner.mk (" = y ".toList ++ behind) 7 (some 7)).next =
        .ok (⟨⟨8, 9⟩, .mark .assign⟩, ⟨" y ".toList ++ behind, 9, none⟩) := rfl
    have hvalue : (NarrowScanner.mk (" y ".toList ++ behind) 9 none).next =
        .ok (⟨⟨10, 11⟩, .name "y"⟩, ⟨' ' :: behind, 11, some 11⟩) := rfl
    rw [NarrowScanner.scan_of_next hsugod, NarrowScanner.scan_of_next htarget,
      NarrowScanner.scan_of_next hassign, NarrowScanner.scan_of_next hvalue]
    cases NarrowScanner.scan ⟨' ' :: behind, 11, some 11⟩ <;> rfl
  have hback : NarrowScanner.scan ⟨"+ z KATAPUSAN".toList, 4294967295, some 11⟩ =
      .ok (wrappedTokens.drop 4) := by
    with_unfolding_all rfl
  have hblanks : ∀ n, NarrowScanner.scan
      ⟨' ' :: (List.replicate n ' ' ++ "+ z KATAPUSAN".toList), 11, some 11⟩ =
        NarrowScanner.scan ⟨"+ z KATAPUSAN".toList, 11 + .ofNat (n + 1), some 11⟩ :=
    fun n => NarrowScanner.scan_blanks (some 11) (n + 1) 11 "+ z KATAPUSAN".toList
  have hoffset : 11 + UInt32.ofNat (UInt32.size - 13 + 1) = 4294967295 := by decide
  unfold tokenizeNarrow
  rw [String.toList_append, String.toList_append,
    @String.toList_ofList (List.replicate (UInt32.size - 13) ' '), List.append_assoc, hfront, hblanks,
    hoffset, hback]
  rfl

/-- In a list of tokens whose places are not in order, a first token that starts at 1 has no last one that
ends at 11 behind it. -/
theorem not_readFrom_wrapped {n : Located} (hspan : n.span = ⟨1, 11⟩) : ¬ReadFrom wrappedTokens n := by
  rintro ⟨before, run, after, first, last, c, d, htokens, -, -, -, hfirst, hlast, hexact⟩
  have hdrop : ∀ i ≤ 8, ∀ t ∈ (wrappedTokens.drop i).head?, t.span.start = 1 →
      ∀ u ∈ wrappedTokens.drop i, u.span.stop ≠ 11 := by decide
  obtain ⟨hstart, hstop⟩ := Span.mk.inj (hspan.symm.trans hexact)
  have hback : wrappedTokens.drop before.length = run ++ after := by
    rw [htokens, List.append_assoc, List.drop_left]
  have hlength : before.length ≤ 8 := by
    have hall := congrArg List.length htokens
    rw [List.length_append, List.length_append] at hall
    exact Nat.le_trans (by omega) (Nat.le_of_eq hall.symm)
  refine hdrop before.length hlength first ?_ hstart.symm last ?_ hstop.symm
  · rw [hback, List.head?_append, hfirst]
    rfl
  · rw [hback]
    exact List.mem_append_left _ (List.mem_of_getLast? hlast)

/-- In a text with these tokens the span of the sum is joined from a part that seems to stand before the
other. -/
theorem not_exact_of_wrapped {text : String} (htokens : tokenizeNarrow text = .ok wrappedTokens) :
    ∃ p tokens, parseNarrow text = .ok p ∧ tokenizeNarrow text = .ok tokens ∧
      ∃ n, Within (.program p.program) n ∧ ¬ReadFrom tokens n ∧
        ¬n.children.Pairwise fun a b => a.span.stop ≤ b.span.start := by
  let sum : Expr := .binary (.arithmetic .add) (.var ⟨"y", ⟨10, 11⟩⟩) (.var ⟨"z", ⟨1, 2⟩⟩) ⟨1, 11⟩
  let assignment : Assignment := ⟨[⟨"x", ⟨6, 7⟩⟩], sum, ⟨6, 11⟩⟩
  have hparse : parseNarrow text = .ok ⟨⟨[.assignment assignment], ⟨0, 12⟩⟩, none⟩ := by
    unfold parseNarrow
    rw [htokens]
    rfl
  have hstmt : Within (.program ⟨[.assignment assignment], ⟨0, 12⟩⟩)
      (.stmt (.assignment assignment)) := .child .root List.mem_cons_self
  have hassign : Within _ (.assignment assignment) := hstmt.child List.mem_cons_self
  have hsum : Within _ (.expr sum) := hassign.child (List.mem_cons_of_mem _ List.mem_cons_self)
  refine ⟨_, wrappedTokens, hparse, htokens, .expr sum, hsum, not_readFrom_wrapped rfl, ?_⟩
  simp [Located.children, Located.span, sum, Expr.span]

/-- A sum whose operands lie on both sides of the offset 2 ^ 32.  Its span goes from 1 to 11, though its
first token starts at 10 and its last one ends at 2. -/
theorem not_spans_of_nodes_exact :
    let text := "SUGOD x = y " ++ String.ofList (List.replicate (UInt32.size - 13) ' ') ++ "+ z KATAPUSAN"
    ∃ p tokens, parseNarrow text = .ok p ∧ tokenizeNarrow text = .ok tokens ∧
      ∃ n, Within (.program p.program) n ∧ ¬ReadFrom tokens n ∧
        ¬n.children.Pairwise fun a b => a.span.stop ≤ b.span.start :=
  not_exact_of_wrapped tokenizeNarrow_wrapped

end BisayaLang
