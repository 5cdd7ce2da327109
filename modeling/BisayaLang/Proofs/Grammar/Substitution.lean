/-
**A statement in the place of another.**

A tree with a gap is a tree in which one statement, at any depth, is left open.  Whatever fills the gap
was read from a run of tokens of its own.  Another run of tokens may take the place of that run, if it is
a statement again, starts with the same token and leaves the same tokens behind it: then the whole tree
is read as before, but for its places, with the other statement in the gap.

What stands before the gap is read in the same way because the next token is the same; what stands
behind it, because its tokens are.

Main definitions:

* `BisayaLang.Around` — trees with a gap, as functions of the statement that fills it;
* `BisayaLang.Replaces` — tokens that may take the place of a statement;
* `BisayaLang.Stand` — the statement in the gap stands between two cursors, and others may stand there.

Main results:

* `BisayaLang.Around.stand` — **every statement of a tree stands among its tokens**, and others may
  take its place;
* `BisayaLang.parseTokens_stand` — the same for the statements of a program.
-/

import BisayaLang.Proofs.Grammar.Relocation
import BisayaLang.Proofs.Grammar.Splice

set_option relaxedAutoImplicit false
set_option autoImplicit false

namespace BisayaLang

open Parse

/-! ### Trees with a gap -/

/-- Trees in which one statement is left open. -/
inductive Around : (Stmt → Node) → Prop
  | here : Around .stmt
  | firstBody {test : Expr} {body : Stmt → Block} {rest : Otherwise} {span : Span} :
      Around (fun s => .block (body s)) → Around (fun s => .stmt (.conditional test (body s) rest span))
  | laterBranches {test : Expr} {body : Block} {rest : Stmt → Otherwise} {span : Span} :
      Around (fun s => .rest (rest s)) → Around (fun s => .stmt (.conditional test body (rest s) span))
  | loop {first : Assignment} {test : Expr} {counter : Name} {step : Step} {body : Stmt → Block}
      {span : Span} : Around (fun s => .block (body s)) →
      Around (fun s => .stmt (.loop first test counter step (body s) span))
  | block {ss : Stmt → List Stmt} {span : Span} : Around (fun s => .body (.mark .rbrace) (ss s)) →
      Around (fun s => .block (.mk (ss s) span))
  | branchBody {test : Expr} {body : Stmt → Block} {rest : Otherwise} :
      Around (fun s => .block (body s)) → Around (fun s => .rest (.branch test (body s) rest))
  | branchRest {test : Expr} {body : Block} {rest : Stmt → Otherwise} :
      Around (fun s => .rest (rest s)) → Around (fun s => .rest (.branch test body (rest s)))
  | always {body : Stmt → Block} : Around (fun s => .block (body s)) →
      Around (fun s => .rest (.always (body s)))
  | head {stop : Token} {first : Stmt → Stmt} {ss : List Stmt} : Around (fun s => .stmt (first s)) →
      Around (fun s => .body stop (first s :: ss))
  | tail {stop : Token} {first : Stmt} {ss : Stmt → List Stmt} : Around (fun s => .body stop (ss s)) →
      Around (fun s => .body stop (first :: ss s))

/-- A body with a gap has a statement. -/
theorem Around.body_ne_nil {hole : Stmt → Node} (h : Around hole) {s : Stmt} {stop : Token}
    {ss : List Stmt} (hs : hole s = .body stop ss) : ss ≠ [] := by
  cases h with
  | head _ | tail _ =>
      obtain ⟨-, rfl⟩ := Node.body.inj hs
      exact List.cons_ne_nil _ _
  | _ => exact absurd hs (by simp)

theorem bareBody_eq_nil {ss : List Stmt} : bareBody ss = [] ↔ ss = [] := by
  cases ss <;> simp [bareBody]

/-- The tokens `new` may take the place of those of a statement between `k` and `e`, and of all tokens
behind them: they start with the same token, are the statement `s` but for its places, and leave the
same tokens. -/
structure Replaces (k e : Cursor) (new : List Spanned) (s : Stmt) : Prop where
  head : (k.splice k new).current = k.current
  reads : ∃ s₂ e₂, Derives (k.splice k new) (.stmt s₂) e₂ ∧ s₂.bare = s.bare ∧ e₂.kinds = e.kinds

/-- In the tree between `c` and `d` the statement `s` stands between `k` and `e`, and fills the gap.  So
does any other that takes its place. -/
structure Stand (hole : Stmt → Node) (s : Stmt) (c k e d : Cursor) : Prop where
  leadsTo : c.LeadsTo k
  derives : Derives k (.stmt s) e
  replace : ∀ (new : List Spanned) (s' : Stmt), Replaces k e new s' →
    ∃ n₂ d₂, Derives (c.splice k new) n₂ d₂ ∧ n₂.bare = (hole s').bare ∧ d₂.kinds = d.kinds

/-! ### What stands before the gap -/

/-- Where the tokens at the gap start as before, so do those further ahead. -/
theorem Cursor.current_splice_of_head {c k : Cursor} {new : List Spanned} (h : c.LeadsTo k)
    (hk : (k.splice k new).current = k.current) : (c.splice k new).current = c.current := by
  by_cases hnil : c.upTo k = []
  · obtain rfl := Cursor.eq_of_upTo h hnil
    exact hk
  · exact Cursor.current_splice_of_ne h hnil new

/-- A statement is read in the same way before others, if the next token is the same. -/
theorem Derives.before_body {c m k d : Cursor} {s : Stmt} {stop : Token} {ss : List Stmt}
    {new : List Spanned} (h : Derives c (.stmt s) m) (hmk : m.LeadsTo k)
    (hk : (k.splice k new).current = k.current) (hss : Derives (m.splice k new) (.body stop ss) d)
    (hne : ss ≠ []) : Derives (c.splice k new) (.stmt s) (m.splice k new) := by
  have hclose : Closes ((c.upTo m).map Spanned.token) m.kinds (m.splice k new).kinds := by
    refine ⟨?_, fun _ hends => ?_⟩
    · cases hss with
      | nil _ => exact absurd rfl hne
      | cons _ hnext _ => exact hnext.boundary
    · rwa [← Cursor.current_eq, Cursor.current_splice_of_head hmk hk, Cursor.current_eq]
  have hstmt := h.splice (m.splice k new).tokens hclose
  rwa [Cursor.splice_splice h.laid.leadsTo hmk, Cursor.splice_self_splice] at hstmt

theorem TestReads.before {c m k : Cursor} {test : Expr} (h : TestReads c test m) (hmk : m.LeadsTo k)
    (new : List Spanned) : TestReads (c.splice k new) test (m.splice k new) :=
  local_test.through h hmk trivial

theorem LoopHead.before {c m k : Cursor} {first : Assignment} {test : Expr} {counter : Name}
    {step : Step} (h : LoopHead c first test counter step m) (hmk : m.LeadsTo k)
    (new : List Spanned) : LoopHead (c.splice k new) first test counter step (m.splice k new) := by
  have hhead := h.splice (m.splice k new).tokens
  rwa [Cursor.splice_splice h.laid.leadsTo hmk, Cursor.splice_self_splice] at hhead

/-! ### Filling the gap -/

/-- **Every statement of a tree stands among its tokens**, and others may take its place. -/
theorem Around.stand {hole : Stmt → Node} (hgap : Around hole) {s : Stmt} {c d : Cursor}
    (h : Derives c (hole s) d) : ∃ k e, Stand hole s c k e d := by
  induction hgap generalizing c d with
  | here =>
      refine ⟨c, d, .refl c, h, fun new s' hnew => ?_⟩
      obtain ⟨s₂, e₂, hs₂, hb, he⟩ := hnew.reads
      exact ⟨_, e₂, hs₂, by simp [Node.bare, hb], he⟩
  | firstBody _ ih =>
      cases h with
      | conditional hc ht hb hr =>
          obtain ⟨k, e, hto, hs, hrep⟩ := ih hb
          have hck := ht.laid.leadsTo.trans hto
          refine ⟨k, e, c.leadsTo_step.trans hck, hs, fun new s' hnew => ?_⟩
          obtain ⟨n₂, m₂, hb₂, heq, hm₂⟩ := hrep new s' hnew
          obtain ⟨body₂, rfl, hbb⟩ := Node.eq_block_of_bare heq
          obtain ⟨n₂, d₂, hr₂, heq, hd₂⟩ := hr.relocate hm₂
          obtain ⟨rest₂, rfl, hbr⟩ := Node.eq_rest_of_bare heq
          obtain ⟨hc', hstep, -⟩ := Cursor.splice_of_current hc (by simp) hck new
          exact ⟨_, d₂, .conditional hc' (hstep ▸ ht.before hto new) hb₂ hr₂,
            by simp [Node.bare, Stmt.bare, hbb, hbr], hd₂⟩
  | laterBranches _ ih =>
      cases h with
      | conditional hc ht hb hr =>
          obtain ⟨k, e, hto, hs, hrep⟩ := ih hr
          have hmk := hb.laid.leadsTo.trans hto
          have hck := ht.laid.leadsTo.trans hmk
          refine ⟨k, e, c.leadsTo_step.trans hck, hs, fun new s' hnew => ?_⟩
          obtain ⟨n₂, d₂, hr₂, heq, hd₂⟩ := hrep new s' hnew
          obtain ⟨rest₂, rfl, hbr⟩ := Node.eq_rest_of_bare heq
          obtain ⟨hc', hstep, -⟩ := Cursor.splice_of_current hc (by simp) hck new
          exact ⟨_, d₂, .conditional hc' (hstep ▸ ht.before hmk new)
            (hb.block_through hb.splice hto new) hr₂, by simp [Node.bare, Stmt.bare, hbr], hd₂⟩
  | loop _ ih =>
      cases h with
      | loop hh hb =>
          obtain ⟨k, e, hto, hs, hrep⟩ := ih hb
          refine ⟨k, e, hh.laid.leadsTo.trans hto, hs, fun new s' hnew => ?_⟩
          obtain ⟨n₂, d₂, hb₂, heq, hd₂⟩ := hrep new s' hnew
          obtain ⟨body₂, rfl, hbb⟩ := Node.eq_block_of_bare heq
          exact ⟨_, d₂, .loop (hh.before hto new) hb₂, by simp [Node.bare, Stmt.bare, hbb], hd₂⟩
  | block _ ih =>
      cases h with
      | block hc hl hss hr =>
          obtain ⟨k, e, hto, hs, hrep⟩ := ih hss
          refine ⟨k, e, c.leadsTo_step.trans (c.step.leadsTo_step.trans hto), hs,
            fun new s' hnew => ?_⟩
          obtain ⟨n₂, m₂, hss₂, heq, hm₂⟩ := hrep new s' hnew
          obtain ⟨ss₂, rfl, hbs⟩ := Node.eq_body_of_bare heq
          obtain ⟨hc', hl', hstep, -⟩ := Cursor.splice_of_two hc (by simp) hl (by simp) hto new
          exact ⟨_, m₂.step, .block hc' hl' (hstep ▸ hss₂) (Cursor.current_congr hm₂ ▸ hr),
            by simp [Node.bare, Block.bare, hbs], Cursor.kinds_step_congr hm₂⟩
  | branchBody _ ih =>
      cases h with
      | branch hk ht hb hr =>
          obtain ⟨k, e, hto, hs, hrep⟩ := ih hb
          have hck := ht.laid.leadsTo.trans hto
          refine ⟨k, e, c.leadsTo_step.trans (c.step.leadsTo_step.trans hck), hs,
            fun new s' hnew => ?_⟩
          obtain ⟨n₂, m₂, hb₂, heq, hm₂⟩ := hrep new s' hnew
          obtain ⟨body₂, rfl, hbb⟩ := Node.eq_block_of_bare heq
          obtain ⟨n₂, d₂, hr₂, heq, hd₂⟩ := hr.relocate hm₂
          obtain ⟨rest₂, rfl, hbr⟩ := Node.eq_rest_of_bare heq
          obtain ⟨hk', hstep⟩ := atKung_splice hk (by simp) hck new
          exact ⟨_, d₂, .branch hk' (hstep ▸ ht.before hto new) hb₂ hr₂,
            by simp [Node.bare, Otherwise.bare, hbb, hbr], hd₂⟩
  | branchRest _ ih =>
      cases h with
      | branch hk ht hb hr =>
          obtain ⟨k, e, hto, hs, hrep⟩ := ih hr
          have hmk := hb.laid.leadsTo.trans hto
          have hck := ht.laid.leadsTo.trans hmk
          refine ⟨k, e, c.leadsTo_step.trans (c.step.leadsTo_step.trans hck), hs,
            fun new s' hnew => ?_⟩
          obtain ⟨n₂, d₂, hr₂, heq, hd₂⟩ := hrep new s' hnew
          obtain ⟨rest₂, rfl, hbr⟩ := Node.eq_rest_of_bare heq
          obtain ⟨hk', hstep⟩ := atKung_splice hk (by simp) hck new
          exact ⟨_, d₂, .branch hk' (hstep ▸ ht.before hmk new)
            (hb.block_through hb.splice hto new) hr₂, by simp [Node.bare, Otherwise.bare, hbr], hd₂⟩
  | always _ ih =>
      cases h with
      | always hk hb =>
          obtain ⟨k, e, hto, hs, hrep⟩ := ih hb
          refine ⟨k, e, c.leadsTo_step.trans (c.step.leadsTo_step.trans hto), hs,
            fun new s' hnew => ?_⟩
          obtain ⟨n₂, d₂, hb₂, heq, hd₂⟩ := hrep new s' hnew
          obtain ⟨body₂, rfl, hbb⟩ := Node.eq_block_of_bare heq
          obtain ⟨hk', hstep⟩ := atKung_splice hk (by simp) hto new
          exact ⟨_, d₂, .always hk' (hstep ▸ hb₂), by simp [Node.bare, Otherwise.bare, hbb], hd₂⟩
  | head _ ih =>
      cases h with
      | cons hm hfirst hss =>
          obtain ⟨k, e, hto, hs, hrep⟩ := ih hfirst
          refine ⟨k, e, hto, hs, fun new s' hnew => ?_⟩
          obtain ⟨n₂, m₂, hfirst₂, heq, hm₂⟩ := hrep new s' hnew
          obtain ⟨first₂, rfl, hbf⟩ := Node.eq_stmt_of_bare heq
          obtain ⟨n₂, d₂, hss₂, heq, hd₂⟩ := hss.relocate hm₂
          obtain ⟨ss₂, rfl, hbs⟩ := Node.eq_body_of_bare heq
          refine ⟨_, d₂, .cons ?_ hfirst₂ hss₂, by simp [Node.bare, bareBody, hbf, hbs], hd₂⟩
          rwa [moreBefore, Cursor.current_splice_of_head hto hnew.head]
  | tail hgap ih =>
      cases h with
      | cons hm hfirst hss =>
          obtain ⟨k, e, hto, hs, hrep⟩ := ih hss
          have hck := hfirst.laid.leadsTo.trans hto
          refine ⟨k, e, hck, hs, fun new s' hnew => ?_⟩
          obtain ⟨n₂, d₂, hss₂, heq, hd₂⟩ := hrep new s' hnew
          obtain ⟨ss₂, rfl, hbs⟩ := Node.eq_body_of_bare heq
          have hfirst₂ := hfirst.before_body hto hnew.head hss₂ fun hnil =>
            hgap.body_ne_nil rfl (bareBody_eq_nil.1 (hbs.symm.trans (bareBody_eq_nil.2 hnil)))
          refine ⟨_, d₂, .cons ?_ hfirst₂ hss₂, by simp [Node.bare, bareBody, hbs], hd₂⟩
          rwa [moreBefore, Cursor.current_splice_of_head hck hnew.head]

theorem Cursor.isSome_trailing (c : Cursor) : c.trailing.isSome = !decide (c.current = .eof) := by
  rw [Cursor.trailing]
  split <;> simp_all

/-- **A statement of a program may be replaced by another one** that starts with the same token and
leaves the same tokens: the other statements stay the same, but for their places. -/
theorem parseTokens_stand {ts : List Spanned} {p : Parsed} (h : parseTokens ts = .ok p)
    {body : Stmt → List Stmt} (hbody : Around fun s => .body (.word .katapusan) (body s)) {s : Stmt}
    (hs : p.program.body = body s) :
    ∃ k e, (Cursor.start ts).LeadsTo k ∧ Derives k (.stmt s) e ∧
      ∀ (new : List Spanned) (s' : Stmt), Replaces k e new s' →
        ∃ p', parseTokens ((Cursor.start ts).upTo k ++ new) = .ok p' ∧
          bareBody p'.program.body = bareBody (body s') ∧
          p'.trailing.isSome = p.trailing.isSome := by
  obtain ⟨d, hp, htrailing⟩ := parseTokens_eq_ok.1 h
  generalize p.program = program at hp hs
  cases hp with
  | intro hc hss hm =>
      obtain rfl := hs
      obtain ⟨k, e, hto, hderives, hrep⟩ := hbody.stand hss
      refine ⟨k, e, (Cursor.start ts).leadsTo_step.trans hto, hderives, fun new s' hnew => ?_⟩
      obtain ⟨n₂, m₂, hss₂, heq, hm₂⟩ := hrep new s' hnew
      obtain ⟨ss₂, rfl, hb⟩ := Node.eq_body_of_bare heq
      obtain ⟨hc', hstep, -⟩ := Cursor.splice_of_current hc (by simp) hto new
      have hread := ProgramReads.intro hc' (hstep ▸ hss₂) (Cursor.current_congr hm₂ ▸ hm)
      refine ⟨⟨_, m₂.step.trailing⟩, parseTokens_eq_ok.2 ⟨_, hread, rfl⟩, hb, ?_⟩
      rw [htrailing, Cursor.isSome_trailing, Cursor.isSome_trailing,
        Cursor.current_congr (Cursor.kinds_step_congr hm₂)]

end BisayaLang
