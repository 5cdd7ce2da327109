/-
**Derivations of statements.**

The statements that stand between two cursors, as rules: each rule names the tokens of a statement in
order, and what has to follow where only the tokens ahead say that a part ends.  The rules are those of
the parser, without its fuel and without its errors.

Statements, blocks, the later branches of a conditional and the statements of a body hold each other;
a `Node` is any of them, so that there is one relation for all, and one induction.

Main definitions:

* `BisayaLang.Many`, `BisayaLang.CommaList` — several parts of one kind;
* `BisayaLang.DeclaredReads`, `BisayaLang.AssignmentReads`, `BisayaLang.Items`, `BisayaLang.TestReads`,
  `BisayaLang.LoopHead` — the parts of statements that hold no statements;
* `BisayaLang.Node`, `BisayaLang.Derives` — a statement, a block, later branches, or a body stands
  between two cursors.

Main results:

* `BisayaLang.Derives.length_le` — every statement takes a token.
-/

import BisayaLang.Grammar.Program
import BisayaLang.Proofs.Grammar.Derivation

set_option relaxedAutoImplicit false
set_option autoImplicit false

namespace BisayaLang

open Climb Parse

/-! ### Several parts -/

/-- Parts stand one behind the other, as long as the tokens ahead announce another one. -/
inductive Many {α : Type} (more : Cursor → Bool) (R : Cursor → α → Cursor → Prop) :
    Cursor → List α → Cursor → Prop
  | nil {c : Cursor} : more c = false → Many more R c [] c
  | cons {c m d : Cursor} {a : α} {as : List α} : more c = true → R c a m → Many more R m as d →
      Many more R c (a :: as) d

/-- The next token is a comma. -/
def atComma (c : Cursor) : Bool := c.current == .mark .comma

/-- One or more parts stand one behind the other, with commas between. -/
inductive CommaList {α : Type} (R : Cursor → α → Cursor → Prop) :
    Cursor → List α → Cursor → Prop
  | intro {c m d : Cursor} {a : α} {as : List α} : R c a m →
      Many atComma (fun c => R c.step) m as d → CommaList R c (a :: as) d

/-! ### Parts of statements -/

/-- An expression stands there, and nothing extends it. -/
def ExprReads (c : Cursor) (e : Expr) (d : Cursor) : Prop := Reads 0 c e d ∧ Stops 0 d

/-- A name stands there. -/
def NameReads (c : Cursor) (n : Name) (d : Cursor) : Prop :=
  c.current = .name n.text ∧ n.span = c.span ∧ d = c.step

/-- A declared variable stands there, with or without a first value. -/
inductive DeclaredReads : Cursor → Declared → Cursor → Prop
  | plain {c d : Cursor} {n : Name} : NameReads c n d → d.current.isAssign = false →
      DeclaredReads c ⟨n, none⟩ d
  | value {c m d : Cursor} {n : Name} {e : Expr} : NameReads c n m → m.current.isAssign = true →
      ExprReads m.step e d → DeclaredReads c ⟨n, some e⟩ d

/-- The target of an assignment and its mark stand there. -/
def TargetReads (c : Cursor) (n : Name) (d : Cursor) : Prop :=
  NameReads c n c.step ∧ c.step.current.isAssign = true ∧ d = c.step.step

/-- An assignment stands there. -/
inductive AssignmentReads : Cursor → Assignment → Cursor → Prop
  | intro {c m m' d : Cursor} {n : Name} {ns : List Name} {e : Expr} : TargetReads c n m →
      Many Cursor.atTarget TargetReads m ns m' → ExprReads m' e d →
      AssignmentReads c ⟨n :: ns, e, ⟨n.span.start, e.span.stop⟩⟩ d

/-- The items of a print statement stand there. -/
inductive Items : (escaped : Bool) → Cursor → List PrintItem → Cursor → Prop
  | stop {escaped : Bool} {c : Cursor} : itemRule escaped c = .stop → Items escaped c [] c
  | escape {escaped on : Bool} {c d : Cursor} {is : List PrintItem} :
      itemRule escaped c = .escape on → Items on c.step is d → Items escaped c is d
  | skip {escaped : Bool} {c d : Cursor} {is : List PrintItem} : itemRule escaped c = .skip →
      Items escaped c.step is d → Items escaped c is d
  | item {escaped : Bool} {c d : Cursor} {i : PrintItem} {is : List PrintItem} :
      itemRule escaped c = .item i → Items escaped c.step is d → Items escaped c (i :: is) d
  | expression {escaped : Bool} {c m d : Cursor} {e : Expr} {is : List PrintItem} :
      itemRule escaped c = .expression → ExprReads c e m → Items escaped m is d →
      Items escaped c (.expr e :: is) d

/-- A test in brackets stands there. -/
inductive TestReads : Cursor → Expr → Cursor → Prop
  | intro {c d : Cursor} {e : Expr} : c.current = .mark .lparen → ExprReads c.step e d →
      d.current = .mark .rparen → TestReads c e d.step

/-- The tokens from `ALANG` to the bracket before the body of a loop stand there. -/
inductive LoopHead : Cursor → Assignment → Expr → Name → Step → Cursor → Prop
  | intro {c m m' n d : Cursor} {first : Assignment} {test : Expr} {counter : Name} {step : Step} :
      c.current = .word .alang → c.step.current = .word .sa → c.step.step.current = .mark .lparen →
      AssignmentReads c.step.step.step first m → m.current = .mark .comma →
      ExprReads m.step test m' → m'.current = .mark .comma → NameReads m'.step counter n →
      n.current = .step step → n.step.current = .mark .rparen → d = n.step.step →
      LoopHead c first test counter step d

/-! ### Statements and what holds them -/

/-- A tree with statements in it.  A body ends at the given token. -/
inductive Node where
  | stmt (s : Stmt)
  | block (b : Block)
  | rest (o : Otherwise)
  | body (stop : Token) (ss : List Stmt)

/-- The statements of a body that ends at `stop` go on. -/
def moreBefore (stop : Token) (c : Cursor) : Bool := c.current != stop && c.current != .eof

/-- The tokens from the first cursor to the second are the tree. -/
inductive Derives : Cursor → Node → Cursor → Prop
  | declaration {c d : Cursor} {type : DataType} {vars : List Declared} :
      c.current = .word .mugna → c.step.current = .type type →
      CommaList DeclaredReads c.step.step vars d →
      Derives c (.stmt (.declaration type vars ⟨c.span.start, d.lastEnd⟩)) d
  | assignment {c d : Cursor} {a : Assignment} : AssignmentReads c a d →
      Derives c (.stmt (.assignment a)) d
  | print {c d : Cursor} {items : List PrintItem} : c.current = .word .ipakita →
      c.step.current = .mark .colon → Items false c.step.step items d →
      Derives c (.stmt (.print items ⟨c.span.start, d.lastEnd⟩)) d
  | input {c d : Cursor} {names : List Name} : c.current = .word .dawat →
      c.step.current = .mark .colon → CommaList NameReads c.step.step names d →
      Derives c (.stmt (.input names ⟨c.span.start, d.lastEnd⟩)) d
  | conditional {c m m' d : Cursor} {test : Expr} {body : Block} {rest : Otherwise} :
      c.current = .word .kung → TestReads c.step test m → Derives m (.block body) m' →
      Derives m' (.rest rest) d →
      Derives c (.stmt (.conditional test body rest ⟨c.span.start, d.lastEnd⟩)) d
  | loop {c m d : Cursor} {first : Assignment} {test : Expr} {counter : Name} {step : Step}
      {body : Block} : LoopHead c first test counter step m → Derives m (.block body) d →
      Derives c (.stmt (.loop first test counter step body ⟨c.span.start, body.span.stop⟩)) d
  | block {c m : Cursor} {ss : List Stmt} : c.current = .word .pundok →
      c.step.current = .mark .lbrace → Derives c.step.step (.body (.mark .rbrace) ss) m →
      m.current = .mark .rbrace → Derives c (.block (.mk ss ⟨c.span.start, m.span.stop⟩)) m.step
  | nothing {c : Cursor} : atKung .dili c = false → atKung (.word .wala) c = false →
      Derives c (.rest .nothing) c
  | branch {c m m' d : Cursor} {test : Expr} {body : Block} {rest : Otherwise} :
      atKung .dili c = true → TestReads c.step.step test m → Derives m (.block body) m' →
      Derives m' (.rest rest) d → Derives c (.rest (.branch test body rest)) d
  | always {c d : Cursor} {body : Block} : atKung (.word .wala) c = true →
      Derives c.step.step (.block body) d → Derives c (.rest (.always body)) d
  | nil {c : Cursor} {stop : Token} : moreBefore stop c = false → Derives c (.body stop []) c
  | cons {c m d : Cursor} {stop : Token} {s : Stmt} {ss : List Stmt} :
      moreBefore stop c = true → Derives c (.stmt s) m → Derives m (.body stop ss) d →
      Derives c (.body stop (s :: ss)) d

/-! ### Every statement takes a token -/

theorem ExprReads.length_lt {c d : Cursor} {e : Expr} (h : ExprReads c e d) :
    d.tokens.length < c.tokens.length := h.1.length_lt

theorem NameReads.length_lt {c d : Cursor} {n : Name} (h : NameReads c n d) :
    d.tokens.length < c.tokens.length := by
  obtain ⟨hc, -, rfl⟩ := h
  exact Cursor.length_step_lt (by simp [hc])

theorem DeclaredReads.length_lt {c d : Cursor} {v : Declared} (h : DeclaredReads c v d) :
    d.tokens.length < c.tokens.length := by
  cases h with
  | plain hn _ => exact hn.length_lt
  | value hn _ he =>
      rename_i m _ _ _
      have h₁ := hn.length_lt
      have h₂ := Climb.length_step_le m
      have h₃ := he.length_lt
      omega

theorem TargetReads.length_lt {c d : Cursor} {n : Name} (h : TargetReads c n d) :
    d.tokens.length < c.tokens.length := by
  obtain ⟨hn, -, rfl⟩ := h
  have h₁ := hn.length_lt
  have h₂ := Climb.length_step_le c.step
  omega

theorem Many.length_le {α : Type} {more : Cursor → Bool} {R : Cursor → α → Cursor → Prop}
    (hlt : ∀ c a d, more c = true → R c a d → d.tokens.length < c.tokens.length) {c d : Cursor}
    {as : List α} (h : Many more R c as d) : d.tokens.length ≤ c.tokens.length := by
  induction h with
  | nil _ => exact Nat.le_refl _
  | cons hm hr _ ih => exact Nat.le_of_lt (Nat.lt_of_le_of_lt ih (hlt _ _ _ hm hr))

/-- Parts are read until none is announced. -/
theorem Many.more_eq_false {α : Type} {more : Cursor → Bool} {R : Cursor → α → Cursor → Prop}
    {c d : Cursor} {as : List α} (h : Many more R c as d) : more d = false := by
  induction h with
  | nil hm => exact hm
  | cons _ _ _ ih => exact ih

theorem Many.forall {α : Type} {more : Cursor → Bool} {R : Cursor → α → Cursor → Prop} {P : α → Prop}
    (hP : ∀ c a d, R c a d → P a) {c d : Cursor} {as : List α} (h : Many more R c as d) :
    ∀ a ∈ as, P a := by
  induction h with
  | nil _ => exact fun a ha => absurd ha (by simp)
  | cons _ hr _ ih =>
      intro a ha
      rcases List.mem_cons.1 ha with rfl | ha
      · exact hP _ _ _ hr
      · exact ih a ha

theorem AssignmentReads.length_lt {c d : Cursor} {a : Assignment} (h : AssignmentReads c a d) :
    d.tokens.length < c.tokens.length := by
  obtain ⟨ht, hts, he⟩ := h
  have h₁ := ht.length_lt
  have h₂ := hts.length_le fun _ _ _ _ h => h.length_lt
  have h₃ := he.length_lt
  omega

theorem TestReads.length_lt {c d : Cursor} {e : Expr} (h : TestReads c e d) :
    d.tokens.length < c.tokens.length := by
  obtain ⟨hc, he, -⟩ := h
  rename_i m
  have h₁ := Cursor.length_step_lt (c := c) (by simp [hc])
  have h₂ := he.length_lt
  have h₃ := Climb.length_step_le m
  omega

theorem LoopHead.length_lt {c d : Cursor} {first : Assignment} {test : Expr} {counter : Name}
    {step : Step} (h : LoopHead c first test counter step d) :
    d.tokens.length < c.tokens.length := by
  obtain ⟨hc, -, -, ha, -, he, -, hn, -, -, rfl⟩ := h
  rename_i m m' n
  have h₁ := Cursor.length_step_lt (c := c) (by simp [hc])
  have h₂ := Climb.length_step_le c.step
  have h₃ := Climb.length_step_le c.step.step
  have h₄ := ha.length_lt
  have h₅ := Climb.length_step_le m
  have h₆ := he.length_lt
  have h₇ := Climb.length_step_le m'
  have h₈ := hn.length_lt
  have h₉ := Climb.length_step_le n
  have h₁₀ := Climb.length_step_le n.step
  omega

theorem Items.length_le {escaped : Bool} {c d : Cursor} {is : List PrintItem}
    (h : Items escaped c is d) : d.tokens.length ≤ c.tokens.length := by
  induction h with
  | stop _ => exact Nat.le_refl _
  | escape _ _ ih => exact Nat.le_trans ih (Climb.length_step_le _)
  | skip _ _ ih => exact Nat.le_trans ih (Climb.length_step_le _)
  | item _ _ ih => exact Nat.le_trans ih (Climb.length_step_le _)
  | expression _ he _ ih => exact Nat.le_trans ih (Nat.le_of_lt he.length_lt)

theorem CommaList.length_lt {α : Type} {R : Cursor → α → Cursor → Prop}
    (hlt : ∀ c a d, R c a d → d.tokens.length < c.tokens.length) {c d : Cursor} {as : List α}
    (h : CommaList R c as d) : d.tokens.length < c.tokens.length := by
  obtain ⟨ha, has⟩ := h
  have h₁ := hlt _ _ _ ha
  have h₂ := has.length_le fun c a d _ h =>
    Nat.lt_of_lt_of_le (hlt c.step a d h) (Climb.length_step_le c)
  omega

/-- The least number of tokens that a tree takes. -/
def Node.leastTokens : Node → Nat
  | .stmt _ | .block _ => 1
  | .rest _ | .body _ _ => 0

/-- **Every statement takes a token**, and so does every block. -/
theorem Derives.length_le {c d : Cursor} {n : Node} (h : Derives c n d) :
    d.tokens.length + n.leastTokens ≤ c.tokens.length := by
  have hlt : ∀ {c : Cursor} {t : Token}, c.current = t → t ≠ .eof →
      c.step.tokens.length < c.tokens.length := by
    rintro c _ rfl ht
    exact Cursor.length_step_lt ht
  have hle := Climb.length_step_le
  induction h with
  | @declaration c d _ _ hc _ hv =>
      have h₁ := hlt hc (by simp)
      have h₂ := hle c.step
      have h₃ := hv.length_lt fun _ _ _ h => h.length_lt
      simp only [Node.leastTokens]
      omega
  | assignment ha => exact ha.length_lt
  | @print c d _ hc _ hi =>
      have h₁ := hlt hc (by simp)
      have h₂ := hle c.step
      have h₃ := hi.length_le
      simp only [Node.leastTokens]
      omega
  | @input c d _ hc _ hn =>
      have h₁ := hlt hc (by simp)
      have h₂ := hle c.step
      have h₃ := hn.length_lt fun _ _ _ h => h.length_lt
      simp only [Node.leastTokens]
      omega
  | conditional hc ht _ _ ihb ihr =>
      have h₁ := hlt hc (by simp)
      have h₂ := ht.length_lt
      simp only [Node.leastTokens] at *
      omega
  | loop hh _ ih =>
      have h₁ := hh.length_lt
      simp only [Node.leastTokens] at *
      omega
  | @block c m _ hc _ _ _ ih =>
      have h₁ := hlt hc (by simp)
      have h₂ := hle c.step
      have h₃ := hle m
      simp only [Node.leastTokens] at *
      omega
  | nothing _ _ => exact Nat.le_refl _
  | @branch c _ _ _ _ _ _ _ ht _ _ ihb ihr =>
      have h₁ := hle c
      have h₂ := hle c.step
      have h₃ := ht.length_lt
      simp only [Node.leastTokens] at *
      omega
  | @always c _ _ _ _ ih =>
      have h₁ := hle c
      have h₂ := hle c.step
      simp only [Node.leastTokens] at *
      omega
  | nil _ => exact Nat.le_refl _
  | cons _ _ _ ihs ihb =>
      simp only [Node.leastTokens] at *
      omega

end BisayaLang
