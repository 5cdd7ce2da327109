/-
**The same tokens in another place.**

The parser looks at the places of tokens only to note them in the tree.  What stands between two cursors
therefore stands also behind any other cursor that has the same tokens ahead, wherever these were found:
the tree is the same but for its places, and the same tokens are left.

Main definitions:

* `BisayaLang.Relocates` — a part is read anew, but for the places, wherever its tokens stand;
* `BisayaLang.Lead.unplaced`, `BisayaLang.Parse.ItemRule.bare` — what a token means, without its place.

Main results:

* `BisayaLang.relocates_expr`, `BisayaLang.relocates_items` — so are expressions and print items;
* `BisayaLang.Derives.relocate` — **so are statements, blocks, branches and bodies**.
-/

import BisayaLang.Proofs.Canonical.Reparse

set_option relaxedAutoImplicit false
set_option autoImplicit false

namespace BisayaLang

open Climb Parse

/-! ### What is decided by the tokens ahead -/

section

variable {c c₂ : Cursor}

theorem Cursor.current_congr (h : c₂.kinds = c.kinds) : c₂.current = c.current := by
  rw [Cursor.current_eq, Cursor.current_eq, h]

theorem Cursor.kinds_step_congr (h : c₂.kinds = c.kinds) : c₂.step.kinds = c.step.kinds := by
  rw [Cursor.kinds_step, Cursor.kinds_step, h]

theorem Cursor.peek_congr (h : c₂.kinds = c.kinds) : c₂.peek = c.peek := by
  rw [Cursor.peek_eq, Cursor.peek_eq, Cursor.current_congr (Cursor.kinds_step_congr h)]

theorem atComma_congr (h : c₂.kinds = c.kinds) : atComma c₂ = atComma c := by
  rw [atComma, atComma, Cursor.current_congr h]

theorem atTarget_congr (h : c₂.kinds = c.kinds) : c₂.atTarget = c.atTarget := by
  rw [atTarget_eq, atTarget_eq, h]

theorem atKung_congr (t : Token) (h : c₂.kinds = c.kinds) : atKung t c₂ = atKung t c := by
  rw [atKung, atKung, Cursor.current_congr h, Cursor.peek_congr h]

theorem moreBefore_congr (stop : Token) (h : c₂.kinds = c.kinds) :
    moreBefore stop c₂ = moreBefore stop c := by
  rw [moreBefore, moreBefore, Cursor.current_congr h]

theorem stops_congr {min : Nat} (h : c₂.kinds = c.kinds) (hs : Stops min c) : Stops min c₂ := by
  intro op hop
  exact hs op (Cursor.current_congr h ▸ hop)

/-- What a token leads, without its place. -/
def Lead.unplaced : Lead → Lead
  | .atom e => .atom e.bare
  | .unary op => .unary op
  | .opening b => .opening b

theorem lead?_unplaced (h : c₂.kinds = c.kinds) :
    (lead? c₂).map Lead.unplaced = (lead? c).map Lead.unplaced := by
  have hneg : Stacks.negates c₂ = Stacks.negates c := by
    rw [Stacks.negates_eq, Stacks.negates_eq, Cursor.kinds_step_congr h]
  unfold lead?
  rw [Cursor.current_congr h, hneg]
  split <;>
    simp [Lead.unplaced, Expr.bare, Name.bare, Option.map_map, Function.comp_def, apply_ite]

/-- What a token means in a print statement, without its place. -/
def Parse.ItemRule.bare : ItemRule → ItemRule
  | .item i => .item i.bare
  | r => r

theorem itemRule_bare (escaped : Bool) (h : c₂.kinds = c.kinds) :
    (itemRule escaped c₂).bare = (itemRule escaped c).bare := by
  unfold itemRule
  rw [Cursor.current_congr h, Cursor.peek_congr h]
  generalize c.peek.isAssign = a, c.peek.isArithmetic = o
  cases escaped <;> cases a <;> cases o <;> split <;> rfl

end

/-! ### Parts of statements -/

section

variable {α : Type}

/-- What is read at one cursor is read, but for the places, at every cursor with the same tokens
ahead. -/
def Relocates (R : Cursor → α → Cursor → Prop) (bare : α → α) : Prop :=
  ∀ {c d : Cursor} {a : α}, R c a d → ∀ {c₂ : Cursor}, c₂.kinds = c.kinds →
    ∃ a₂ d₂, R c₂ a₂ d₂ ∧ bare a₂ = bare a ∧ d₂.kinds = d.kinds

theorem relocates_reads (min : Nat) : Relocates (Reads min) Expr.bare := by
  have hlead : ∀ {c c₂ : Cursor} {l : Lead}, lead? c = some l → c₂.kinds = c.kinds →
      ∃ l₂, lead? c₂ = some l₂ ∧ l₂.unplaced = l.unplaced := by
    intro c c₂ l hl hk
    have hmap := lead?_unplaced hk
    rw [hl, Option.map_some] at hmap
    exact Option.map_eq_some_iff.1 hmap
  intro c d e h
  induction h with
  | atom hl =>
      intro c₂ hk
      obtain ⟨l₂, hl₂, hb⟩ := hlead hl hk
      cases l₂ with
      | atom e₂ => exact ⟨e₂, c₂.step, .atom hl₂, Lead.atom.inj hb, Cursor.kinds_step_congr hk⟩
      | _ => simp [Lead.unplaced] at hb
  | unary hl _ hst ih =>
      intro c₂ hk
      obtain ⟨l₂, hl₂, hb⟩ := hlead hl hk
      cases l₂ with
      | unary op₂ =>
          obtain rfl := Lead.unary.inj hb
          obtain ⟨e₂, d₂, hr, he, hd⟩ := ih (Cursor.kinds_step_congr hk)
          exact ⟨_, d₂, .unary hl₂ hr (stops_congr hd hst), by simp [Expr.bare, he], hd⟩
      | _ => simp [Lead.unplaced] at hb
  | group hl _ hcl ih =>
      intro c₂ hk
      obtain ⟨l₂, hl₂, hb⟩ := hlead hl hk
      cases l₂ with
      | opening b₂ =>
          obtain rfl := Lead.opening.inj hb
          obtain ⟨e₂, d₂, hr, he, hd⟩ := ih (Cursor.kinds_step_congr hk)
          exact ⟨_, d₂.step, .group hl₂ hr (Cursor.current_congr hd ▸ hcl),
            by simp [Expr.bare, he], Cursor.kinds_step_congr hd⟩
      | _ => simp [Lead.unplaced] at hb
  | binary _ hop hlt _ hst ihl ihr =>
      intro c₂ hk
      obtain ⟨l₂, d₂, hl, hbl, hd⟩ := ihl hk
      obtain ⟨r₂, d₃, hr, hbr, hd'⟩ := ihr (Cursor.kinds_step_congr hd)
      exact ⟨_, d₃, .binary hl (Cursor.current_congr hd ▸ hop) hlt hr (stops_congr hd' hst),
        by simp [Expr.bare, hbl, hbr], hd'⟩

theorem relocates_expr : Relocates ExprReads Expr.bare := by
  intro c d e h c₂ hk
  obtain ⟨e₂, d₂, hr, hb, hd⟩ := relocates_reads 0 h.1 hk
  exact ⟨e₂, d₂, ⟨hr, stops_congr hd h.2⟩, hb, hd⟩

theorem relocates_name : Relocates NameReads Name.bare := by
  rintro c _ n ⟨hc, -, rfl⟩ c₂ hk
  exact ⟨⟨n.text, c₂.span⟩, c₂.step, ⟨Cursor.current_congr hk ▸ hc, rfl, rfl⟩, rfl,
    Cursor.kinds_step_congr hk⟩

theorem relocates_declared : Relocates DeclaredReads Declared.bare := by
  intro c d v h c₂ hk
  cases h with
  | plain hn ha =>
      obtain ⟨n₂, d₂, hn₂, hb, hd⟩ := relocates_name hn hk
      exact ⟨_, d₂, .plain hn₂ (Cursor.current_congr hd ▸ ha), by simp [Declared.bare, hb], hd⟩
  | value hn ha he =>
      obtain ⟨n₂, m₂, hn₂, hb, hm⟩ := relocates_name hn hk
      obtain ⟨e₂, d₂, he₂, hbe, hd⟩ := relocates_expr he (Cursor.kinds_step_congr hm)
      exact ⟨_, d₂, .value hn₂ (Cursor.current_congr hm ▸ ha) he₂,
        by simp [Declared.bare, hb, hbe], hd⟩

theorem relocates_target : Relocates TargetReads Name.bare := by
  rintro c _ n ⟨hn, ha, rfl⟩ c₂ hk
  have hk' := Cursor.kinds_step_congr hk
  exact ⟨⟨n.text, c₂.span⟩, c₂.step.step, ⟨⟨Cursor.current_congr hk ▸ hn.1, rfl, rfl⟩,
    Cursor.current_congr hk' ▸ ha, rfl⟩, rfl, Cursor.kinds_step_congr hk'⟩

variable {R : Cursor → α → Cursor → Prop} {bare : α → α}

theorem relocates_many {more : Cursor → Bool}
    (hmore : ∀ {c c₂ : Cursor}, c₂.kinds = c.kinds → more c₂ = more c) (hR : Relocates R bare) :
    Relocates (Many more R) (List.map bare) := by
  intro c d as h
  induction h with
  | nil hm =>
      intro c₂ hk
      exact ⟨[], c₂, .nil (hmore hk ▸ hm), rfl, hk⟩
  | cons hm ha _ ih =>
      intro c₂ hk
      obtain ⟨a₂, m₂, ha₂, hb, hm₂⟩ := hR ha hk
      obtain ⟨as₂, d₂, has₂, hbs, hd⟩ := ih hm₂
      exact ⟨a₂ :: as₂, d₂, .cons (hmore hk ▸ hm) ha₂ has₂, by rw [List.map_cons, hb, hbs]; rfl, hd⟩

theorem relocates_commaList (hR : Relocates R bare) :
    Relocates (CommaList R) (List.map bare) := by
  rintro c d _ ⟨ha, has⟩ c₂ hk
  have hstep : Relocates (fun c => R c.step) bare :=
    fun h _ hk => hR h (Cursor.kinds_step_congr hk)
  obtain ⟨a₂, m₂, ha₂, hb, hm⟩ := hR ha hk
  obtain ⟨as₂, d₂, has₂, hbs, hd⟩ := relocates_many atComma_congr hstep has hm
  exact ⟨a₂ :: as₂, d₂, .intro ha₂ has₂, by rw [List.map_cons, hb, hbs]; rfl, hd⟩

end

theorem relocates_assignment : Relocates AssignmentReads Assignment.bare := by
  rintro c d _ ⟨ht, hts, he⟩ c₂ hk
  obtain ⟨n₂, m₂, ht₂, hb, hm⟩ := relocates_target ht hk
  obtain ⟨ns₂, m₃, hts₂, hbs, hm'⟩ := relocates_many atTarget_congr relocates_target hts hm
  obtain ⟨e₂, d₂, he₂, hbe, hd⟩ := relocates_expr he hm'
  exact ⟨_, d₂, .intro ht₂ hts₂ he₂, by simp [Assignment.bare, hb, hbs, hbe], hd⟩

theorem relocates_items (escaped : Bool) :
    Relocates (Items escaped) (List.map PrintItem.bare) := by
  have hrule : ∀ {escaped : Bool} {c c₂ : Cursor} {r : ItemRule}, itemRule escaped c = r →
      c₂.kinds = c.kinds → (itemRule escaped c₂).bare = r.bare := by
    rintro escaped c c₂ _ rfl hk
    exact itemRule_bare escaped hk
  -- only an item has a place
  have hsame : ∀ {r r₂ : ItemRule}, r₂.bare = r.bare → (∀ i, r ≠ .item i) → r₂ = r := by
    intro r r₂ hb hi
    cases r with
    | item i => exact absurd rfl (hi i)
    | _ => cases r₂ <;> simp_all [ItemRule.bare]
  intro c d is h
  induction h with
  | stop hr =>
      intro c₂ hk
      exact ⟨[], c₂, .stop (hsame (hrule hr hk) (by simp)), rfl, hk⟩
  | escape hr _ ih =>
      intro c₂ hk
      obtain ⟨is₂, d₂, hi₂, hb, hd⟩ := ih (Cursor.kinds_step_congr hk)
      exact ⟨is₂, d₂, .escape (hsame (hrule hr hk) (by simp)) hi₂, hb, hd⟩
  | skip hr _ ih =>
      intro c₂ hk
      obtain ⟨is₂, d₂, hi₂, hb, hd⟩ := ih (Cursor.kinds_step_congr hk)
      exact ⟨is₂, d₂, .skip (hsame (hrule hr hk) (by simp)) hi₂, hb, hd⟩
  | @item escaped c _ i is hr _ ih =>
      intro c₂ hk
      obtain ⟨is₂, d₂, hi₂, hb, hd⟩ := ih (Cursor.kinds_step_congr hk)
      obtain ⟨i₂, hr₂, hbi⟩ : ∃ i₂, itemRule escaped c₂ = .item i₂ ∧ i₂.bare = i.bare := by
        have hbare := hrule hr hk
        cases hr₂ : itemRule escaped c₂ with
        | item i₂ => exact ⟨i₂, rfl, by simpa [hr₂, ItemRule.bare] using hbare⟩
        | _ => simp [hr₂, ItemRule.bare] at hbare
      exact ⟨i₂ :: is₂, d₂, .item hr₂ hi₂, by rw [List.map_cons, hbi, hb]; rfl, hd⟩
  | expression hr he _ ih =>
      intro c₂ hk
      obtain ⟨e₂, m₂, he₂, hbe, hm⟩ := relocates_expr he hk
      obtain ⟨is₂, d₂, hi₂, hb, hd⟩ := ih hm
      exact ⟨.expr e₂ :: is₂, d₂, .expression (hsame (hrule hr hk) (by simp)) he₂ hi₂,
        by rw [List.map_cons, PrintItem.bare, hbe, hb]; rfl, hd⟩

theorem relocates_test : Relocates TestReads Expr.bare := by
  rintro c _ e ⟨hc, he, hd⟩ c₂ hk
  obtain ⟨e₂, d₂, he₂, hb, hd₂⟩ := relocates_expr he (Cursor.kinds_step_congr hk)
  exact ⟨e₂, d₂.step, .intro (Cursor.current_congr hk ▸ hc) he₂ (Cursor.current_congr hd₂ ▸ hd), hb,
    Cursor.kinds_step_congr hd₂⟩

theorem LoopHead.relocate {c d : Cursor} {first : Assignment} {test : Expr} {counter : Name}
    {step : Step} (h : LoopHead c first test counter step d) {c₂ : Cursor}
    (hk : c₂.kinds = c.kinds) :
    ∃ first₂ test₂ counter₂ d₂, LoopHead c₂ first₂ test₂ counter₂ step d₂ ∧
      first₂.bare = first.bare ∧ test₂.bare = test.bare ∧ counter₂.bare = counter.bare ∧
      d₂.kinds = d.kinds := by
  obtain ⟨hc, hs, hl, ha, hm, he, hm', hn, hst, hr, rfl⟩ := h
  have h₁ := Cursor.kinds_step_congr hk
  have h₂ := Cursor.kinds_step_congr h₁
  obtain ⟨first₂, m₂, ha₂, hba, hm₂⟩ := relocates_assignment ha (Cursor.kinds_step_congr h₂)
  obtain ⟨test₂, m₃, he₂, hbe, hm₃⟩ := relocates_expr he (Cursor.kinds_step_congr hm₂)
  obtain ⟨counter₂, n₂, hn₂, hbn, hn⟩ := relocates_name hn (Cursor.kinds_step_congr hm₃)
  have h₃ := Cursor.kinds_step_congr hn
  exact ⟨first₂, test₂, counter₂, n₂.step.step, .intro (Cursor.current_congr hk ▸ hc)
    (Cursor.current_congr h₁ ▸ hs) (Cursor.current_congr h₂ ▸ hl) ha₂
    (Cursor.current_congr hm₂ ▸ hm) he₂ (Cursor.current_congr hm₃ ▸ hm') hn₂
    (Cursor.current_congr hn ▸ hst) (Cursor.current_congr h₃ ▸ hr) rfl, hba, hbe, hbn,
    Cursor.kinds_step_congr h₃⟩

/-! ### Statements, blocks and branches -/

/-- **A tree is read, but for its places, wherever its tokens stand.** -/
theorem Derives.relocate {c d : Cursor} {n : Node} (h : Derives c n d) :
    ∀ {c₂ : Cursor}, c₂.kinds = c.kinds →
      ∃ n₂ d₂, Derives c₂ n₂ d₂ ∧ n₂.bare = n.bare ∧ d₂.kinds = d.kinds := by
  induction h with
  | declaration hc ht hv =>
      intro c₂ hk
      have hk' := Cursor.kinds_step_congr hk
      obtain ⟨vars₂, d₂, hv₂, hb, hd⟩ :=
        relocates_commaList relocates_declared hv (Cursor.kinds_step_congr hk')
      exact ⟨_, d₂, .declaration (Cursor.current_congr hk ▸ hc) (Cursor.current_congr hk' ▸ ht) hv₂,
        by simp [Node.bare, Stmt.bare, hb], hd⟩
  | assignment ha =>
      intro c₂ hk
      obtain ⟨a₂, d₂, ha₂, hb, hd⟩ := relocates_assignment ha hk
      exact ⟨_, d₂, .assignment ha₂, by simp [Node.bare, Stmt.bare, hb], hd⟩
  | print hc ht hi =>
      intro c₂ hk
      have hk' := Cursor.kinds_step_congr hk
      obtain ⟨is₂, d₂, hi₂, hb, hd⟩ := relocates_items false hi (Cursor.kinds_step_congr hk')
      exact ⟨_, d₂, .print (Cursor.current_congr hk ▸ hc) (Cursor.current_congr hk' ▸ ht) hi₂,
        by simp [Node.bare, Stmt.bare, hb], hd⟩
  | input hc ht hn =>
      intro c₂ hk
      have hk' := Cursor.kinds_step_congr hk
      obtain ⟨names₂, d₂, hn₂, hb, hd⟩ :=
        relocates_commaList relocates_name hn (Cursor.kinds_step_congr hk')
      exact ⟨_, d₂, .input (Cursor.current_congr hk ▸ hc) (Cursor.current_congr hk' ▸ ht) hn₂,
        by simp [Node.bare, Stmt.bare, hb], hd⟩
  | conditional hc ht _ _ ihb ihr =>
      intro c₂ hk
      obtain ⟨test₂, m₂, ht₂, hbt, hm₂⟩ := relocates_test ht (Cursor.kinds_step_congr hk)
      obtain ⟨n₂, m₃, hb₂, heq, hm₃⟩ := ihb hm₂
      obtain ⟨body₂, rfl, hbb⟩ := Node.eq_block_of_bare heq
      obtain ⟨n₂, d₂, hr₂, heq, hd₂⟩ := ihr hm₃
      obtain ⟨rest₂, rfl, hbr⟩ := Node.eq_rest_of_bare heq
      exact ⟨_, d₂, .conditional (Cursor.current_congr hk ▸ hc) ht₂ hb₂ hr₂,
        by simp [Node.bare, Stmt.bare, hbt, hbb, hbr], hd₂⟩
  | loop hh _ ih =>
      intro c₂ hk
      obtain ⟨first₂, test₂, counter₂, m₂, hh₂, hbf, hbt, hbc, hm₂⟩ := hh.relocate hk
      obtain ⟨n₂, d₂, hb₂, heq, hd₂⟩ := ih hm₂
      obtain ⟨body₂, rfl, hbb⟩ := Node.eq_block_of_bare heq
      exact ⟨_, d₂, .loop hh₂ hb₂, by simp [Node.bare, Stmt.bare, hbf, hbt, hbc, hbb], hd₂⟩
  | block hc hl _ hr ih =>
      intro c₂ hk
      have hk' := Cursor.kinds_step_congr hk
      obtain ⟨n₂, m₂, hs₂, heq, hm₂⟩ := ih (Cursor.kinds_step_congr hk')
      obtain ⟨ss₂, rfl, hbs⟩ := Node.eq_body_of_bare heq
      exact ⟨_, m₂.step, .block (Cursor.current_congr hk ▸ hc) (Cursor.current_congr hk' ▸ hl) hs₂
        (Cursor.current_congr hm₂ ▸ hr), by simp [Node.bare, Block.bare, hbs],
        Cursor.kinds_step_congr hm₂⟩
  | nothing hd hw =>
      intro c₂ hk
      exact ⟨_, c₂, .nothing (atKung_congr _ hk ▸ hd) (atKung_congr _ hk ▸ hw), rfl, hk⟩
  | branch hc ht _ _ ihb ihr =>
      intro c₂ hk
      obtain ⟨test₂, m₂, ht₂, hbt, hm₂⟩ :=
        relocates_test ht (Cursor.kinds_step_congr (Cursor.kinds_step_congr hk))
      obtain ⟨n₂, m₃, hb₂, heq, hm₃⟩ := ihb hm₂
      obtain ⟨body₂, rfl, hbb⟩ := Node.eq_block_of_bare heq
      obtain ⟨n₂, d₂, hr₂, heq, hd₂⟩ := ihr hm₃
      obtain ⟨rest₂, rfl, hbr⟩ := Node.eq_rest_of_bare heq
      exact ⟨_, d₂, .branch (atKung_congr _ hk ▸ hc) ht₂ hb₂ hr₂,
        by simp [Node.bare, Otherwise.bare, hbt, hbb, hbr], hd₂⟩
  | always hc _ ih =>
      intro c₂ hk
      obtain ⟨n₂, d₂, hb₂, heq, hd₂⟩ := ih (Cursor.kinds_step_congr (Cursor.kinds_step_congr hk))
      obtain ⟨body₂, rfl, hbb⟩ := Node.eq_block_of_bare heq
      exact ⟨_, d₂, .always (atKung_congr _ hk ▸ hc) hb₂, by simp [Node.bare, Otherwise.bare, hbb],
        hd₂⟩
  | nil hm =>
      intro c₂ hk
      exact ⟨_, c₂, .nil (moreBefore_congr _ hk ▸ hm), rfl, hk⟩
  | cons hm _ _ ihs ihb =>
      intro c₂ hk
      obtain ⟨n₂, m₂, hs₂, heq, hm₂⟩ := ihs hk
      obtain ⟨s₂, rfl, hbs⟩ := Node.eq_stmt_of_bare heq
      obtain ⟨n₂, d₂, hss₂, heq, hd₂⟩ := ihb hm₂
      obtain ⟨ss₂, rfl, hbss⟩ := Node.eq_body_of_bare heq
      exact ⟨_, d₂, .cons (moreBefore_congr _ hk ▸ hm) hs₂ hss₂,
        by simp [Node.bare, bareBody, hbs, hbss], hd₂⟩

end BisayaLang
