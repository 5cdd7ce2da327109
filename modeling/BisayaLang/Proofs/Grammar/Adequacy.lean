/-
**The parser finds exactly the derivations.**

For every parser of a statement, or of a part of one, there is a lemma that says when it succeeds, and
with what: exactly when there is a derivation.  Fuel does not show in it.  A parser for statements with
as much fuel as there are tokens never runs out, since every statement takes at least one token.

Main results:

* `BisayaLang.Parse.assignment_eq_ok`, `BisayaLang.Parse.items_eq_ok` — parts without statements;
* `BisayaLang.Parse.statementF_eq_ok` — **statements are read exactly where they are derived**;
* `BisayaLang.parseTokens_eq_ok` — the same for programs.
-/

import BisayaLang.Proofs.Grammar.Success

set_option relaxedAutoImplicit false
set_option autoImplicit false

namespace BisayaLang

namespace Parse

/-! ### Statements without blocks -/

theorem declared_eq_ok {c d : Cursor} {v : Declared} :
    declared c = .ok v d ↔ DeclaredReads c v d := by
  unfold declared
  constructor
  · intro h
    obtain ⟨n, m, hn, h⟩ := bind_eq_ok.1 h
    have hn := name_eq_ok.1 hn
    rw [get_bind, ite_eq_ok] at h
    rcases h with ⟨ha, h⟩ | ⟨ha, h⟩
    · rw [step_bind] at h
      obtain ⟨e, d', he, h⟩ := bind_eq_ok.1 h
      obtain ⟨rfl, rfl⟩ := pure_eq_ok.1 h
      exact .value hn ha (expression_eq_ok.1 he)
    · obtain ⟨rfl, rfl⟩ := pure_eq_ok.1 h
      exact .plain hn (by simpa using ha)
  · intro h
    cases h with
    | plain hn ha =>
        refine bind_eq_ok.2 ⟨_, _, name_eq_ok.2 hn, ?_⟩
        rw [get_bind, ite_eq_ok]
        exact .inr ⟨by simp [ha], pure_eq_ok.2 ⟨rfl, rfl⟩⟩
    | value hn ha he =>
        refine bind_eq_ok.2 ⟨_, _, name_eq_ok.2 hn, ?_⟩
        rw [get_bind, ite_eq_ok, step_bind]
        exact .inl ⟨ha, bind_eq_ok.2 ⟨_, _, expression_eq_ok.2 he, pure_eq_ok.2 ⟨rfl, rfl⟩⟩⟩

theorem target_eq_ok {c d : Cursor} {n : Name} : target c = .ok n d ↔ TargetReads c n d := by
  unfold target
  constructor
  · intro h
    obtain ⟨n', m, hn, h⟩ := bind_eq_ok.1 h
    obtain ⟨span, m', ha, h⟩ := bind_eq_ok.1 h
    obtain ⟨rfl, rfl⟩ := pure_eq_ok.1 h
    have hn := name_eq_ok.1 hn
    obtain ⟨hmark, -, rfl⟩ := assign_eq_ok.1 ha
    obtain rfl := hn.2.2
    exact ⟨hn, hmark, rfl⟩
  · rintro ⟨hn, ha, rfl⟩
    exact bind_eq_ok.2 ⟨_, _, name_eq_ok.2 hn, bind_eq_ok.2
      ⟨_, _, assign_eq_ok.2 ⟨ha, rfl, rfl⟩, pure_eq_ok.2 ⟨rfl, rfl⟩⟩⟩

theorem atTarget_ne_eof {c : Cursor} (h : c.atTarget = true) : c.current ≠ .eof := by
  intro he
  simp [Cursor.atTarget, he, Token.isName] at h

theorem assignment_eq_ok {c d : Cursor} {a : Assignment} :
    assignment c = .ok a d ↔ AssignmentReads c a d := by
  have hrepeat : ∀ {m m' : Cursor} {ns : List Name},
      repeatWhile Cursor.atTarget target m = .ok ns m' ↔ Many Cursor.atTarget TargetReads m ns m' :=
    repeatWhile_eq_ok (fun _ => atTarget_ne_eof) (fun _ _ _ _ _ => target_eq_ok)
      fun _ _ _ _ h => h.length_lt
  unfold assignment
  constructor
  · intro h
    obtain ⟨n, m, hn, h⟩ := bind_eq_ok.1 h
    obtain ⟨ns, m', hns, h⟩ := bind_eq_ok.1 h
    obtain ⟨e, d', he, h⟩ := bind_eq_ok.1 h
    obtain ⟨rfl, rfl⟩ := pure_eq_ok.1 h
    exact .intro (target_eq_ok.1 hn) (hrepeat.1 hns) (expression_eq_ok.1 he)
  · rintro ⟨hn, hns, he⟩
    exact bind_eq_ok.2 ⟨_, _, target_eq_ok.2 hn, bind_eq_ok.2 ⟨_, _, hrepeat.2 hns, bind_eq_ok.2
      ⟨_, _, expression_eq_ok.2 he, pure_eq_ok.2 ⟨rfl, rfl⟩⟩⟩⟩

theorem itemRule_eof {escaped : Bool} {c : Cursor} (h : c.current = .eof) :
    itemRule escaped c = .stop := by
  simp only [itemRule, h]

/-- Every item and every separator takes a token, so that as many of them as there are tokens are
enough. -/
theorem itemsF_eq_ok {fuel : Nat} {escaped : Bool} {c d : Cursor} {is : List PrintItem}
    (hf : c.tokens.length ≤ fuel) :
    itemsF fuel escaped c = .ok is d ↔ Items escaped c is d := by
  induction fuel generalizing escaped c d is with
  | zero =>
      have hc : itemRule escaped c = .stop := by
        refine itemRule_eof ?_
        obtain ⟨tokens, lastEnd⟩ := c
        obtain rfl : tokens = [] := List.length_eq_zero_iff.1 (Nat.le_zero.1 hf)
        rfl
      rw [itemsF, pure_eq_ok]
      constructor
      · rintro ⟨rfl, rfl⟩
        exact .stop hc
      · intro h
        cases h with
        | stop _ => exact ⟨rfl, rfl⟩
        | _ => simp_all
  | succ fuel ih =>
      -- whatever does not end the items takes a token, which pays for the fuel
      have hstep : ∀ {rule : ItemRule}, itemRule escaped c = rule → rule ≠ .stop →
          c.step.tokens.length ≤ fuel := by
        rintro _ rfl hr
        have hlt := Cursor.length_step_lt (c := c) fun he => hr (itemRule_eof he)
        omega
      rw [itemsF, get_bind]
      cases hr : itemRule escaped c with
      | stop =>
          rw [pure_eq_ok]
          constructor
          · rintro ⟨rfl, rfl⟩
            exact .stop hr
          · intro h
            cases h with
            | stop _ => exact ⟨rfl, rfl⟩
            | _ => simp_all
      | escape on =>
          simp only [step_bind, ih (hstep hr (by simp))]
          constructor
          · exact .escape hr
          · intro h
            cases h with
            | escape hr' h => rw [hr] at hr'; cases hr'; exact h
            | _ => simp_all
      | skip =>
          simp only [step_bind, ih (hstep hr (by simp))]
          constructor
          · exact .skip hr
          · intro h
            cases h with
            | skip _ h => exact h
            | _ => simp_all
      | item i =>
          simp only [step_bind, bind_eq_ok, pure_eq_ok, ih (hstep hr (by simp))]
          constructor
          · rintro ⟨rest, m, h, rfl, rfl⟩
            exact .item hr h
          · intro h
            cases h with
            | item hr' h => rw [hr] at hr'; cases hr'; exact ⟨_, _, h, rfl, rfl⟩
            | _ => simp_all
      | expression =>
          simp only [bind_eq_ok, pure_eq_ok, expression_eq_ok]
          constructor
          · rintro ⟨e, m, he, rest, m', h, rfl, rfl⟩
            have hlt := he.length_lt
            exact .expression hr he ((ih (by omega)).1 h)
          · intro h
            cases h with
            | expression _ he h =>
                have hlt := he.length_lt
                exact ⟨_, _, he, _, _, (ih (by omega)).2 h, rfl, rfl⟩
            | _ => simp_all

theorem items_eq_ok {c d : Cursor} {is : List PrintItem} :
    items c = .ok is d ↔ Items false c is d := itemsF_eq_ok (Nat.le_refl _)

theorem declaration_eq_ok {c d : Cursor} {s : Stmt} :
    declaration c = .ok s d ↔ ∃ type vars, c.current = .word .mugna ∧
      c.step.current = .type type ∧ CommaList DeclaredReads c.step.step vars d ∧
      s = .declaration type vars ⟨c.span.start, d.lastEnd⟩ := by
  have hvars : ∀ {c d : Cursor} {vars : List Declared},
      commaList declared c = .ok vars d ↔ CommaList DeclaredReads c vars d :=
    commaList_eq_ok (fun _ _ _ => declared_eq_ok) fun _ _ _ h => h.length_lt
  unfold declaration
  simp only [bind_eq_ok, expect_eq_ok (show Token.word .mugna ≠ .eof by simp), dataType_eq_ok,
    lastEnd_bind, hvars]
  constructor
  · rintro ⟨_, _, ⟨hc, rfl, rfl⟩, type, _, ⟨ht, rfl⟩, vars, d', hv, h⟩
    obtain ⟨rfl, rfl⟩ := pure_eq_ok.1 h
    exact ⟨type, vars, hc, ht, hv, rfl⟩
  · rintro ⟨type, vars, hc, ht, hv, rfl⟩
    exact ⟨_, _, ⟨hc, rfl, rfl⟩, _, _, ⟨ht, rfl⟩, _, _, hv, pure_eq_ok.2 ⟨rfl, rfl⟩⟩

theorem print_eq_ok {c d : Cursor} {s : Stmt} :
    print c = .ok s d ↔ ∃ is, c.current = .word .ipakita ∧ c.step.current = .mark .colon ∧
      Items false c.step.step is d ∧ s = .print is ⟨c.span.start, d.lastEnd⟩ := by
  unfold print
  simp only [bind_eq_ok, expect_eq_ok (show Token.word .ipakita ≠ .eof by simp),
    expect_eq_ok (show Token.mark .colon ≠ .eof by simp), lastEnd_bind, items_eq_ok]
  constructor
  · rintro ⟨_, _, ⟨hc, rfl, rfl⟩, _, _, ⟨hl, rfl, rfl⟩, is, d', hi, h⟩
    obtain ⟨rfl, rfl⟩ := pure_eq_ok.1 h
    exact ⟨is, hc, hl, hi, rfl⟩
  · rintro ⟨is, hc, hl, hi, rfl⟩
    exact ⟨_, _, ⟨hc, rfl, rfl⟩, _, _, ⟨hl, rfl, rfl⟩, _, _, hi, pure_eq_ok.2 ⟨rfl, rfl⟩⟩

theorem input_eq_ok {c d : Cursor} {s : Stmt} :
    input c = .ok s d ↔ ∃ names, c.current = .word .dawat ∧ c.step.current = .mark .colon ∧
      CommaList NameReads c.step.step names d ∧ s = .input names ⟨c.span.start, d.lastEnd⟩ := by
  have hnames : ∀ {c d : Cursor} {names : List Name},
      commaList name c = .ok names d ↔ CommaList NameReads c names d :=
    commaList_eq_ok (fun _ _ _ => name_eq_ok) fun _ _ _ h => h.length_lt
  unfold input
  simp only [bind_eq_ok, expect_eq_ok (show Token.word .dawat ≠ .eof by simp),
    expect_eq_ok (show Token.mark .colon ≠ .eof by simp), lastEnd_bind, hnames]
  constructor
  · rintro ⟨_, _, ⟨hc, rfl, rfl⟩, _, _, ⟨hl, rfl, rfl⟩, names, d', hn, h⟩
    obtain ⟨rfl, rfl⟩ := pure_eq_ok.1 h
    exact ⟨names, hc, hl, hn, rfl⟩
  · rintro ⟨names, hc, hl, hn, rfl⟩
    exact ⟨_, _, ⟨hc, rfl, rfl⟩, _, _, ⟨hl, rfl, rfl⟩, _, _, hn, pure_eq_ok.2 ⟨rfl, rfl⟩⟩

/-! ### Statements with blocks -/

/-- A body is as many statements as the tokens ahead announce. -/
theorem many_iff_derives {stop : Token} {c d : Cursor} {ss : List Stmt} :
    Many (moreBefore stop) (fun c s d => Derives c (.stmt s) d) c ss d ↔
      Derives c (.body stop ss) d := by
  constructor
  · intro h
    induction h with
    | nil hm => exact .nil hm
    | cons hm hs _ ih => exact .cons hm hs ih
  · intro h
    induction ss generalizing c with
    | nil =>
        cases h with
        | nil hm => exact .nil hm
    | cons s ss ih =>
        cases h with
        | cons hm hs hss => exact .cons hm hs (ih hss)

theorem moreBefore_ne_eof {stop : Token} {c : Cursor} (h : moreBefore stop c = true) :
    c.current ≠ .eof := by
  intro he
  simp [moreBefore, he] at h

section

variable {st : Parse Stmt} {n : Nat}
  (hst : ∀ c, c.tokens.length ≤ n → ∀ s d, st c = .ok s d ↔ Derives c (.stmt s) d)

include hst

theorem body_eq_ok {stop : Token} {c d : Cursor} {ss : List Stmt} (hn : c.tokens.length ≤ n) :
    repeatWhile (moreBefore stop) st c = .ok ss d ↔ Derives c (.body stop ss) d := by
  rw [← many_iff_derives]
  refine repeatWhile_eq_ok (fun _ => moreBefore_ne_eof) (fun m hm _ => ?_) fun c s d _ h => ?_
  · exact hst m (Nat.le_trans hm hn)
  · exact h.length_le

theorem blockOf_eq_ok {c d : Cursor} {b : Block} (hn : c.tokens.length ≤ n) :
    blockOf st c = .ok b d ↔ Derives c (.block b) d := by
  have hbody : ∀ {d : Cursor} {ss : List Stmt},
      repeatWhile moreInBlock st c.step.step = .ok ss d ↔
        Derives c.step.step (.body (.mark .rbrace) ss) d :=
    body_eq_ok hst (Nat.le_trans (Nat.le_trans (Climb.length_step_le _) (Climb.length_step_le _)) hn)
  unfold blockOf
  simp only [bind_eq_ok, expect_eq_ok (show Token.word .pundok ≠ .eof by simp),
    expect_eq_ok (show Token.mark .lbrace ≠ .eof by simp),
    expect_eq_ok (show Token.mark .rbrace ≠ .eof by simp)]
  constructor
  · rintro ⟨_, _, ⟨hc, rfl, rfl⟩, _, _, ⟨hl, rfl, rfl⟩, ss, m, hss, _, _, ⟨hr, rfl, rfl⟩, h⟩
    obtain ⟨rfl, rfl⟩ := pure_eq_ok.1 h
    exact .block hc hl (hbody.1 hss) hr
  · intro h
    cases h with
    | block hc hl hss hr =>
        exact ⟨_, _, ⟨hc, rfl, rfl⟩, _, _, ⟨hl, rfl, rfl⟩, _, _, hbody.2 hss, _, _, ⟨hr, rfl, rfl⟩,
          pure_eq_ok.2 ⟨rfl, rfl⟩⟩

theorem branchOf_eq_ok {c d : Cursor} {e : Expr} {b : Block} (hn : c.tokens.length ≤ n) :
    branchOf st c = .ok (e, b) d ↔ ∃ m, TestReads c e m ∧ Derives m (.block b) d := by
  unfold branchOf
  simp only [bind_eq_ok, expect_eq_ok (show Token.mark .lparen ≠ .eof by simp),
    expect_eq_ok (show Token.mark .rparen ≠ .eof by simp), expression_eq_ok]
  constructor
  · rintro ⟨_, _, ⟨hc, rfl, rfl⟩, e', m, he, _, _, ⟨hr, rfl, rfl⟩, b', d', hb, h⟩
    obtain ⟨heq, rfl⟩ := pure_eq_ok.1 h
    cases heq
    have ht : TestReads c e m.step := .intro hc he hr
    have hlt := ht.length_lt
    exact ⟨_, ht, (blockOf_eq_ok hst (by omega)).1 hb⟩
  · rintro ⟨m, ht, hb⟩
    have hlt := ht.length_lt
    obtain ⟨hc, he, hr⟩ := ht
    exact ⟨_, _, ⟨hc, rfl, rfl⟩, _, _, he, _, _, ⟨hr, rfl, rfl⟩, _, _,
      (blockOf_eq_ok hst (by omega)).2 hb, pure_eq_ok.2 ⟨rfl, rfl⟩⟩

end

/-- A test and the block behind it, behind `KUNG DILI`. -/
def BranchReads (c : Cursor) (x : Expr × Block) (d : Cursor) : Prop :=
  ∃ m, TestReads c.step.step x.1 m ∧ Derives m (.block x.2) d

theorem BranchReads.length_lt {c d : Cursor} {x : Expr × Block} (h : BranchReads c x d) :
    d.tokens.length < c.tokens.length := by
  obtain ⟨m, ht, hb⟩ := h
  have h₁ := Climb.length_step_le c
  have h₂ := Climb.length_step_le c.step
  have h₃ := ht.length_lt
  have h₄ := hb.length_le
  omega

/-- The last part of a conditional: a block behind `KUNG WALA`, or nothing. -/
def LastReads (c : Cursor) (o : Otherwise) (d : Cursor) : Prop :=
  (atKung (.word .wala) c = true ∧ ∃ b, Derives c.step.step (.block b) d ∧ o = .always b) ∨
    (atKung (.word .wala) c = false ∧ d = c ∧ o = .nothing)

/-- The later branches of a conditional as the parser puts them together. -/
def chain (others : List (Expr × Block)) (last : Otherwise) : Otherwise :=
  others.foldr (fun (test, body) rest => .branch test body rest) last

theorem derives_chain {c m d : Cursor} {others : List (Expr × Block)} {last : Otherwise}
    (h : Many (atKung .dili) BranchReads c others m) (hl : LastReads m last d) :
    Derives c (.rest (chain others last)) d := by
  induction h with
  | nil hm =>
      rcases hl with ⟨hw, b, hb, rfl⟩ | ⟨hw, rfl, rfl⟩
      · exact .always hw hb
      · exact .nothing hm hw
  | cons hm hx _ ih =>
      obtain ⟨m', ht, hb⟩ := hx
      exact .branch hm ht hb (ih hl)

theorem atKung_wala_of_dili {c : Cursor} (h : atKung (.word .wala) c = true) :
    atKung .dili c = false := by
  simp only [atKung, Bool.and_eq_true, beq_iff_eq] at h
  simp [atKung, h]

/-- Later branches come apart the way the parser puts them together.  The recursion is on the
branches. -/
theorem exists_chain : ∀ {o : Otherwise} {c d : Cursor}, Derives c (.rest o) d →
    ∃ others m last, Many (atKung .dili) BranchReads c others m ∧ LastReads m last d ∧
      o = chain others last
  | .nothing, c, d, h => by
      cases h with
      | nothing hd hw => exact ⟨[], c, .nothing, .nil hd, .inr ⟨hw, rfl, rfl⟩, rfl⟩
  | .always b, c, d, h => by
      cases h with
      | always hw hb =>
          exact ⟨[], c, .always b, .nil (atKung_wala_of_dili hw), .inl ⟨hw, b, hb, rfl⟩, rfl⟩
  | .branch test body rest, c, d, h => by
      cases h with
      | branch hd ht hb hr =>
          obtain ⟨others, m, last, hm, hl, rfl⟩ := exists_chain hr
          exact ⟨(test, body) :: others, m, last, .cons hd ⟨_, ht, hb⟩ hm, hl, rfl⟩

theorem atKung_ne_eof {t : Token} {c : Cursor} (h : atKung t c = true) : c.current ≠ .eof := by
  intro he
  simp [atKung, he] at h

section

variable {st : Parse Stmt} {n : Nat}
  (hst : ∀ c, c.tokens.length ≤ n → ∀ s d, st c = .ok s d ↔ Derives c (.stmt s) d)

include hst

theorem lastBranchOf_eq_ok {c d : Cursor} {o : Otherwise} (hn : c.tokens.length ≤ n) :
    lastBranchOf st c = .ok o d ↔ LastReads c o d := by
  have hlen : c.step.step.tokens.length ≤ n :=
    Nat.le_trans (Nat.le_trans (Climb.length_step_le _) (Climb.length_step_le _)) hn
  unfold lastBranchOf
  simp only [get_bind, ite_eq_ok, step_bind, bind_eq_ok, blockOf_eq_ok hst hlen, pure_eq_ok]
  constructor
  · rintro (⟨hw, b, m, hb, rfl, rfl⟩ | ⟨hw, rfl, rfl⟩)
    · exact .inl ⟨hw, b, hb, rfl⟩
    · exact .inr ⟨by simpa using hw, rfl, rfl⟩
  · rintro (⟨hw, b, hb, rfl⟩ | ⟨hw, rfl, rfl⟩)
    · exact .inl ⟨hw, b, _, hb, rfl, rfl⟩
    · exact .inr ⟨by simp [hw], rfl, rfl⟩

theorem others_eq_ok {c d : Cursor} {others : List (Expr × Block)} (hn : c.tokens.length ≤ n) :
    repeatWhile (atKung .dili) (do step; step; branchOf st) c = .ok others d ↔
      Many (atKung .dili) BranchReads c others d := by
  refine repeatWhile_eq_ok (fun _ => atKung_ne_eof) (fun m hm _ x d => ?_)
    fun c x d _ h => h.length_lt
  have h₁ := Climb.length_step_le m
  have h₂ := Climb.length_step_le m.step
  rw [step_bind, step_bind]
  exact branchOf_eq_ok hst (by omega)

theorem rest_eq_ok {c d : Cursor} {o : Otherwise} (hn : c.tokens.length ≤ n) :
    (∃ others m last, repeatWhile (atKung .dili) (do step; step; branchOf st) c = .ok others m ∧
      lastBranchOf st m = .ok last d ∧ o = chain others last) ↔ Derives c (.rest o) d := by
  constructor
  · rintro ⟨others, m, last, ho, hl, rfl⟩
    have ho := (others_eq_ok hst hn).1 ho
    have hlen := ho.length_le fun _ _ _ _ h => h.length_lt
    exact derives_chain ho ((lastBranchOf_eq_ok hst (by omega)).1 hl)
  · intro h
    obtain ⟨others, m, last, ho, hl, rfl⟩ := exists_chain h
    have hlen := ho.length_le fun _ _ _ _ h => h.length_lt
    exact ⟨others, m, last, (others_eq_ok hst hn).2 ho, (lastBranchOf_eq_ok hst (by omega)).2 hl,
      rfl⟩

theorem conditionalOf_eq_ok {c d : Cursor} {s : Stmt} (hn : c.tokens.length ≤ n + 1) :
    conditionalOf st c = .ok s d ↔ ∃ test body rest m m', c.current = .word .kung ∧
      TestReads c.step test m ∧ Derives m (.block body) m' ∧ Derives m' (.rest rest) d ∧
      s = .conditional test body rest ⟨c.span.start, d.lastEnd⟩ := by
  unfold conditionalOf
  simp only [bind_eq_ok, expect_eq_ok (show Token.word .kung ≠ .eof by simp), lastEnd_bind]
  constructor
  · rintro ⟨_, _, ⟨hc, rfl, rfl⟩, ⟨test, body⟩, m, hx, others, m', ho, last, d', hl, h⟩
    obtain ⟨rfl, rfl⟩ := pure_eq_ok.1 h
    have hlen := Cursor.length_step_lt (c := c) (by simp [hc])
    obtain ⟨m₀, ht, hb⟩ := (branchOf_eq_ok hst (by omega)).1 hx
    have h₁ := ht.length_lt
    have h₂ := hb.length_le
    have hr := (rest_eq_ok hst (by omega)).1 ⟨others, m', last, ho, hl, rfl⟩
    exact ⟨test, body, _, m₀, m, hc, ht, hb, hr, rfl⟩
  · rintro ⟨test, body, rest, m, m', hc, ht, hb, hr, rfl⟩
    have hlen := Cursor.length_step_lt (c := c) (by simp [hc])
    have h₁ := ht.length_lt
    have h₂ := hb.length_le
    obtain ⟨others, m₂, last, ho, hl, rfl⟩ := (rest_eq_ok hst (by omega)).2 hr
    exact ⟨_, _, ⟨hc, rfl, rfl⟩, (test, body), m', (branchOf_eq_ok hst (by omega)).2 ⟨m, ht, hb⟩,
      others, m₂, ho, last, d, hl, pure_eq_ok.2 ⟨rfl, rfl⟩⟩

theorem loopOf_eq_ok {c d : Cursor} {s : Stmt} (hn : c.tokens.length ≤ n + 1) :
    loopOf st c = .ok s d ↔ ∃ first test counter step body m,
      LoopHead c first test counter step m ∧ Derives m (.block body) d ∧
      s = .loop first test counter step body ⟨c.span.start, body.span.stop⟩ := by
  unfold loopOf
  simp only [bind_eq_ok, expect_eq_ok (show Token.word .alang ≠ .eof by simp),
    expect_eq_ok (show Token.word .sa ≠ .eof by simp),
    expect_eq_ok (show Token.mark .lparen ≠ .eof by simp),
    expect_eq_ok (show Token.mark .comma ≠ .eof by simp),
    expect_eq_ok (show Token.mark .rparen ≠ .eof by simp), assignment_eq_ok, expression_eq_ok,
    name_eq_ok, loopStep_eq_ok]
  constructor
  · rintro ⟨_, _, ⟨hc, rfl, rfl⟩, _, _, ⟨hs, rfl, rfl⟩, _, _, ⟨hl, rfl, rfl⟩, first, m, ha, _, _,
      ⟨hm, rfl, rfl⟩, test, m', he, _, _, ⟨hm', rfl, rfl⟩, counter, k, hk, step, _, ⟨hstep, rfl⟩, _,
      _, ⟨hr, rfl, rfl⟩, body, d', hb, h⟩
    obtain ⟨rfl, rfl⟩ := pure_eq_ok.1 h
    have hh : LoopHead c first test counter step k.step.step :=
      .intro hc hs hl ha hm he hm' hk hstep hr rfl
    have hlen := hh.length_lt
    exact ⟨first, test, counter, step, body, _, hh, (blockOf_eq_ok hst (by omega)).1 hb, rfl⟩
  · rintro ⟨first, test, counter, step, body, m, hh, hb, rfl⟩
    have hlen := hh.length_lt
    have hb := (blockOf_eq_ok hst (by omega)).2 hb
    obtain ⟨hc, hs, hl, ha, hm, he, hm', hk, hstep, hr, rfl⟩ := hh
    exact ⟨_, _, ⟨hc, rfl, rfl⟩, _, _, ⟨hs, rfl, rfl⟩, _, _, ⟨hl, rfl, rfl⟩, _, _, ha, _, _,
      ⟨hm, rfl, rfl⟩, _, _, he, _, _, ⟨hm', rfl, rfl⟩, _, _, hk, _, _, ⟨hstep, rfl⟩, _, _,
      ⟨hr, rfl, rfl⟩, _, _, hb, pure_eq_ok.2 ⟨rfl, rfl⟩⟩

end

/-! ### Any statement, and programs -/

/-- **Statements are read exactly where they are derived**, with as much fuel as there are tokens. -/
theorem statementF_eq_ok {fuel : Nat} {c : Cursor} (hf : c.tokens.length ≤ fuel) {s : Stmt}
    {d : Cursor} : statementF fuel c = .ok s d ↔ Derives c (.stmt s) d := by
  induction fuel generalizing c s d with
  | zero =>
      rw [statementF]
      constructor
      · intro h
        exact absurd h failHere_ne_ok
      · intro h
        have hlen := h.length_le
        simp only [Node.leastTokens] at hlen
        omega
  | succ fuel ih =>
      -- the statements of a block stand behind a token of this one
      have hst : ∀ c, c.tokens.length ≤ fuel → ∀ s d,
          statementF fuel c = .ok s d ↔ Derives c (.stmt s) d := fun c hc s d => ih hc
      rw [statementF, get_bind]
      constructor
      · intro h
        cases hc : c.current with
        | name text =>
            simp only [hc] at h
            obtain ⟨a, ha, rfl⟩ := map_eq_ok.1 h
            exact .assignment (assignment_eq_ok.1 ha)
        | word w =>
            cases w with
            | mugna =>
                simp only [hc] at h
                obtain ⟨type, vars, hc, ht, hv, rfl⟩ := declaration_eq_ok.1 h
                exact .declaration hc ht hv
            | ipakita =>
                simp only [hc] at h
                obtain ⟨is, hc, hl, hi, rfl⟩ := print_eq_ok.1 h
                exact .print hc hl hi
            | dawat =>
                simp only [hc] at h
                obtain ⟨names, hc, hl, hn, rfl⟩ := input_eq_ok.1 h
                exact .input hc hl hn
            | kung =>
                simp only [hc] at h
                obtain ⟨test, body, rest, m, m', hc, ht, hb, hr, rfl⟩ :=
                  (conditionalOf_eq_ok hst hf).1 h
                exact .conditional hc ht hb hr
            | alang =>
                simp only [hc] at h
                obtain ⟨first, test, counter, step, body, m, hh, hb, rfl⟩ :=
                  (loopOf_eq_ok hst hf).1 h
                exact .loop hh hb
            | _ =>
                simp only [hc] at h
                exact absurd h failHere_ne_ok
        | _ =>
            simp only [hc] at h
            exact absurd h failHere_ne_ok
      · intro h
        cases h with
        | declaration hc ht hv =>
            simp only [hc]
            exact declaration_eq_ok.2 ⟨_, _, hc, ht, hv, rfl⟩
        | assignment ha =>
            obtain ⟨text, hc⟩ : ∃ text, c.current = .name text := by
              obtain ⟨⟨⟨hc, -, -⟩, -, -⟩, -, -⟩ := ha
              exact ⟨_, hc⟩
            simp only [hc]
            exact map_eq_ok.2 ⟨_, assignment_eq_ok.2 ha, rfl⟩
        | print hc hl hi =>
            simp only [hc]
            exact print_eq_ok.2 ⟨_, hc, hl, hi, rfl⟩
        | input hc hl hn =>
            simp only [hc]
            exact input_eq_ok.2 ⟨_, hc, hl, hn, rfl⟩
        | conditional hc ht hb hr =>
            simp only [hc]
            exact (conditionalOf_eq_ok hst hf).2 ⟨_, _, _, _, _, hc, ht, hb, hr, rfl⟩
        | loop hh hb =>
            have hc : c.current = .word .alang := by
              obtain ⟨hc, -, -, -, -, -, -, -, -, -, -⟩ := hh
              exact hc
            simp only [hc]
            exact (loopOf_eq_ok hst hf).2 ⟨_, _, _, _, _, _, hh, hb, rfl⟩

theorem statement_eq_ok {c d : Cursor} {s : Stmt} :
    statement c = .ok s d ↔ Derives c (.stmt s) d := statementF_eq_ok (Nat.le_refl _)

end Parse

/-- A program stands there. -/
inductive ProgramReads : Cursor → Program → Cursor → Prop
  | intro {c m : Cursor} {ss : List Stmt} : c.current = .word .sugod →
      Derives c.step (.body (.word .katapusan) ss) m → m.current = .word .katapusan →
      ProgramReads c ⟨ss, ⟨c.span.start, m.span.stop⟩⟩ m.step

/-- The span of the tokens behind a program, if there are any. -/
def Cursor.trailing (c : Cursor) : Option Span :=
  if c.current = .eof then none
  else some ⟨c.span.start, (Cursor.skipToEnd c.tokens c.lastEnd).lastEnd⟩

open Parse

theorem program_eq_ok {c d : Cursor} {p : Program} :
    program c = .ok p d ↔ ProgramReads c p d := by
  have hbody : ∀ {m d : Cursor} {ss : List Stmt},
      repeatWhile moreInProgram statement m = .ok ss d ↔
        Derives m (.body (.word .katapusan) ss) d := by
    intro m d ss
    exact body_eq_ok (fun _ _ _ _ => statement_eq_ok) (Nat.le_refl m.tokens.length)
  unfold program sugod katapusan
  simp only [bind_eq_ok, get_bind, ite_eq_ok, failHere_ne_ok, and_false, or_false, false_or,
    expect_eq_ok (show Token.word .sugod ≠ .eof by simp),
    expect_eq_ok (show Token.word .katapusan ≠ .eof by simp), hbody]
  constructor
  · rintro ⟨_, _, ⟨hc, -, rfl, rfl⟩, ss, m, hss, _, _, ⟨-, hm, rfl, rfl⟩, h⟩
    obtain ⟨rfl, rfl⟩ := pure_eq_ok.1 h
    exact .intro hc hss hm
  · rintro ⟨hc, hss, hm⟩
    exact ⟨_, _, ⟨hc, hc, rfl, rfl⟩, _, _, hss, _, _, ⟨by simp [hm], hm, rfl, rfl⟩,
      pure_eq_ok.2 ⟨rfl, rfl⟩⟩

theorem trailing_eq_ok {c : Cursor} {t : Option Span} :
    (∃ d, trailing c = .ok t d) ↔ t = c.trailing := by
  unfold trailing Cursor.trailing
  rw [get_bind]
  constructor
  · rintro ⟨d, h⟩
    rcases ite_eq_ok.1 h with ⟨he, h⟩ | ⟨he, h⟩
    · rw [if_pos he]
      exact (pure_eq_ok.1 h).1.symm
    · rw [if_neg he]
      cases h
      rfl
  · rintro rfl
    split
    · exact ⟨c, rfl⟩
    · exact ⟨_, rfl⟩

theorem runOn_eq_ok {α : Type} {p : Parse α} {ts : List Spanned} {a : α} :
    p.runOn ts = .ok a ↔ ∃ d, p (.start ts) = .ok a d := by
  unfold runOn
  simp only [EStateM.run]
  cases p (.start ts) <;> simp

/-- **The parser finds exactly the programs that stand at the head of the tokens.** -/
theorem parseTokens_eq_ok {ts : List Spanned} {p : Parsed} :
    parseTokens ts = .ok p ↔
      ∃ d, ProgramReads (.start ts) p.program d ∧ p.trailing = d.trailing := by
  unfold parseTokens whole
  rw [runOn_eq_ok]
  constructor
  · rintro ⟨d, h⟩
    obtain ⟨prog, m, hp, h⟩ := bind_eq_ok.1 h
    obtain ⟨t, d', ht, h⟩ := bind_eq_ok.1 h
    obtain ⟨rfl, rfl⟩ := pure_eq_ok.1 h
    exact ⟨m, program_eq_ok.1 hp, trailing_eq_ok.1 ⟨_, ht⟩⟩
  · rintro ⟨m, hp, ht⟩
    obtain ⟨d, hd⟩ := trailing_eq_ok.2 ht
    exact ⟨d, bind_eq_ok.2 ⟨_, _, program_eq_ok.2 hp, bind_eq_ok.2
      ⟨_, _, hd, pure_eq_ok.2 ⟨rfl, rfl⟩⟩⟩⟩

end BisayaLang
