/-
**Escapes in print statements.**

Between square brackets a print statement takes every token for its text.  The loop that reads the
items goes round once for every token or expression, inside of an escape or outside; here its rounds are
relations of their own, so that one can speak of the places it comes to.

Where it comes to an opening bracket outside of an escape, the tokens up to the closing bracket give
their texts, whatever they are, and the loop is outside again.  All that such a group does besides is to
separate: with an `&` in its place the items before it and behind it are the same, and so is the rest of
the program.

Main definitions:

* `BisayaLang.ItemRound`, `BisayaLang.ItemsRun` — one round of the loop, and several;
* `BisayaLang.Spanned.lexeme` — the text of a token, as an item;
* `BisayaLang.Token.Escapable`, `BisayaLang.EscapeGroup` — the tokens of an escape, and its brackets;
* `BisayaLang.PrintsBetween` — texts are written between what other items print.

Main results:

* `BisayaLang.ItemsRun.items_iff` — what the loop has made is the start of the items;
* `BisayaLang.EscapeGroup.run` — **a group gives the texts of its tokens**;
* `BisayaLang.ItemsRun.before` — what is read before a group is read in the same way before an `&`;
* `BisayaLang.printsBetween_lexemes` — the texts of a group are written in order;
* `BisayaLang.escape_emits_lexemes` — the same for a print statement anywhere in a program, and what it
  prints.
-/

import BisayaLang.Proofs.Execution.Printing
import BisayaLang.Proofs.Grammar.Substitution
import BisayaLang.Proofs.Tree.Names

set_option relaxedAutoImplicit false
set_option autoImplicit false

namespace BisayaLang

open Parse

/-! ### Rounds of the loop -/

/-- One round of the loop that reads the items of a print statement, with the items it makes. -/
inductive ItemRound : Bool → Cursor → List PrintItem → Bool → Cursor → Prop
  | escape {escaped on : Bool} {c : Cursor} : itemRule escaped c = .escape on →
      ItemRound escaped c [] on c.step
  | skip {escaped : Bool} {c : Cursor} : itemRule escaped c = .skip →
      ItemRound escaped c [] escaped c.step
  | item {escaped : Bool} {c : Cursor} {i : PrintItem} : itemRule escaped c = .item i →
      ItemRound escaped c [i] escaped c.step
  | expression {escaped : Bool} {c m : Cursor} {e : Expr} : itemRule escaped c = .expression →
      Parse.expression c = .ok e m → ItemRound escaped c [.expr e] escaped m

/-- Several rounds of the loop, with all the items they make. -/
inductive ItemsRun : Bool → Cursor → List PrintItem → Bool → Cursor → Prop
  | here {escaped : Bool} {c : Cursor} : ItemsRun escaped c [] escaped c
  | round {escaped escaped' escaped'' : Bool} {c m d : Cursor} {is js : List PrintItem} :
      ItemRound escaped c is escaped' m → ItemsRun escaped' m js escaped'' d →
      ItemsRun escaped c (is ++ js) escaped'' d

section

variable {escaped escaped' escaped'' : Bool} {c m d : Cursor} {is js : List PrintItem}

theorem ItemRound.ne_stop (h : ItemRound escaped c is escaped' m) : itemRule escaped c ≠ .stop := by
  cases h <;> simp_all

theorem ItemRound.leadsTo (h : ItemRound escaped c is escaped' m) : c.LeadsTo m := by
  cases h with
  | expression _ he => exact local_expr.leadsTo (expression_eq_ok.1 he)
  | _ => exact c.leadsTo_step

/-- What a round makes is the start of the items.  The loop has no choice. -/
theorem ItemRound.items_iff (h : ItemRound escaped c is escaped' m) {all : List PrintItem} :
    Items escaped c all d ↔ ∃ rest, all = is ++ rest ∧ Items escaped' m rest d := by
  cases h with
  | escape hr =>
      constructor
      · intro hi
        cases hi with
        | escape hr' hi => cases hr.symm.trans hr'; exact ⟨_, rfl, hi⟩
        | _ => simp_all
      · rintro ⟨rest, rfl, hi⟩
        exact .escape hr hi
  | skip hr =>
      constructor
      · intro hi
        cases hi with
        | skip _ hi => exact ⟨_, rfl, hi⟩
        | _ => simp_all
      · rintro ⟨rest, rfl, hi⟩
        exact .skip hr hi
  | item hr =>
      constructor
      · intro hi
        cases hi with
        | item hr' hi => cases hr.symm.trans hr'; exact ⟨_, rfl, hi⟩
        | _ => simp_all
      · rintro ⟨rest, rfl, hi⟩
        exact .item hr hi
  | expression hr he =>
      constructor
      · intro hi
        cases hi with
        | expression _ he' hi =>
            cases he.symm.trans (expression_eq_ok.2 he')
            exact ⟨_, rfl, hi⟩
        | _ => simp_all
      · rintro ⟨rest, rfl, hi⟩
        exact .expression hr (expression_eq_ok.1 he) hi

theorem ItemsRun.trans (h : ItemsRun escaped c is escaped' m)
    (h' : ItemsRun escaped' m js escaped'' d) : ItemsRun escaped c (is ++ js) escaped'' d := by
  induction h with
  | here => exact h'
  | round hr _ ih =>
      rw [List.append_assoc]
      exact .round hr (ih h')

theorem ItemsRun.leadsTo (h : ItemsRun escaped c is escaped' m) : c.LeadsTo m := by
  induction h with
  | here => exact .refl _
  | round hr _ ih => exact hr.leadsTo.trans ih

/-- **What the loop has made is the start of the items**, and from where it stands it makes the
others. -/
theorem ItemsRun.items_iff (h : ItemsRun escaped c is escaped' m) {all : List PrintItem} :
    Items escaped c all d ↔ ∃ rest, all = is ++ rest ∧ Items escaped' m rest d := by
  induction h generalizing all with
  | here => simp
  | round hr _ ih =>
      rw [hr.items_iff]
      constructor
      · rintro ⟨_, rfl, hi⟩
        obtain ⟨rest, rfl, hrest⟩ := ih.1 hi
        exact ⟨rest, (List.append_assoc ..).symm, hrest⟩
      · rintro ⟨rest, rfl, hi⟩
        exact ⟨_, List.append_assoc .., ih.2 ⟨rest, rfl, hi⟩⟩

/-- A round goes in the same way before other tokens, if no expression goes on with them.  Behind the
round stand these tokens, or the loop goes on as it did. -/
theorem ItemRound.before (h : ItemRound escaped c is escaped' m) (hmd : m.LeadsTo d)
    (hnext : m = d ∨ itemRule escaped' m ≠ .stop) {new : List Spanned}
    (hends : Ends (new.map Spanned.token)) :
    ItemRound escaped (c.splice d new) is escaped' (m.splice d new) := by
  have hone : ∀ {r : ItemRule}, itemRule escaped c = r → r ≠ .stop → r ≠ .expression →
      c.step.LeadsTo d →
      itemRule escaped (c.splice d new) = r ∧ (c.splice d new).step = c.step.splice d new := by
    rintro _ rfl hne hexpr hd
    exact ⟨itemRule_splice hne hexpr hd hends.assign hends.isArithmetic_eq,
      Cursor.step_splice (itemRule_ne_eof hne) hd new⟩
  cases h with
  | escape hr =>
      obtain ⟨hrule, hstep⟩ := hone hr (by simp) (by simp) hmd
      exact hstep ▸ .escape hrule
  | skip hr =>
      obtain ⟨hrule, hstep⟩ := hone hr (by simp) (by simp) hmd
      exact hstep ▸ .skip hrule
  | item hr =>
      obtain ⟨hrule, hstep⟩ := hone hr (by simp) (by simp) hmd
      exact hstep ▸ .item hrule
  | expression hr he =>
      have he := expression_eq_ok.1 he
      obtain ⟨rfl, -⟩ := itemRule_eq_expression.1 hr
      have hfollows : Follows m (m.splice d new).kinds := by
        by_cases hnil : m.upTo d = []
        · obtain rfl := Cursor.eq_of_upTo hmd hnil
          rw [Cursor.splice_self]
          exact hends.follows m
        · refine follows_splice hmd hnil ?_ new
          -- an assignment would have ended the loop
          cases ht : m.atTarget with
          | false => rfl
          | true =>
              rcases hnext with rfl | hne
              · exact absurd (Cursor.upTo_self m) hnil
              · exact absurd (itemRule_of_atTarget ht) hne
      have hread := he.splice_follows (m.splice d new).tokens hfollows
      rw [Cursor.splice_splice he.1.leadsTo hmd, Cursor.splice_self_splice] at hread
      exact .expression (he.itemRule_splice hr hmd new) (expression_eq_ok.2 hread)

/-- The loop goes in the same way up to other tokens, if no expression goes on with them. -/
theorem ItemsRun.before (h : ItemsRun escaped c is escaped' d) {new : List Spanned}
    (hends : Ends (new.map Spanned.token)) :
    ItemsRun escaped (c.splice d new) is escaped' (d.splice d new) := by
  induction h with
  | here => exact .here
  | round hr hrun ih =>
      refine .round (hr.before hrun.leadsTo ?_ hends) ih
      cases hrun with
      | here => exact .inl rfl
      | round hr' _ => exact .inr hr'.ne_stop

end

/-! ### Groups -/

/-- The text of a token, as an item. -/
def Spanned.lexeme (u : Spanned) : PrintItem := .text u.token.literal u.span

/-- The token neither closes an escape nor ends a print statement. -/
def Token.Escapable (t : Token) : Prop :=
  t ≠ .mark .rbracket ∧ t ≠ .mark .rbrace ∧ t.isReserved = false ∧ t ≠ .eof

/-- A group: an opening bracket, a closing one, and between them tokens that neither close it nor end
the statement. -/
structure EscapeGroup (opening : Spanned) (us : List Spanned) (closing : Spanned) : Prop where
  opens : opening.token = .mark .lbracket
  closes : closing.token = .mark .rbracket
  inner : ∀ u ∈ us, u.token.Escapable

/-- Inside of an escape a token stands for its text. -/
theorem itemRule_lexeme {c : Cursor} {u : Spanned} {rest : List Spanned} (hc : c.tokens = u :: rest)
    (hu : u.token.Escapable) : itemRule true c = .item u.lexeme := by
  have hcur : c.current = u.token := by rw [Cursor.current, hc]
  have hspan : c.span = u.span := by rw [Cursor.span, hc]
  obtain ⟨hclose, hbrace, hword, heof⟩ := hu
  rw [itemRule, hcur, hspan]
  split <;> simp_all [Token.isReserved, Spanned.lexeme]

/-- The tokens inside of an escape give their texts. -/
theorem lexemes_run {us after : List Spanned} {c : Cursor} (hc : c.tokens = us ++ after)
    (hus : ∀ u ∈ us, u.token.Escapable) :
    ∃ d, ItemsRun true c (us.map Spanned.lexeme) true d ∧ d.tokens = after := by
  induction us generalizing c with
  | nil => exact ⟨c, .here, hc⟩
  | cons u us ih =>
      have hstep : c.step.tokens = us ++ after := by rw [Cursor.step, hc]; rfl
      obtain ⟨d, hrun, hd⟩ := ih hstep fun v hv => hus v (List.mem_cons_of_mem u hv)
      exact ⟨d, .round (.item (itemRule_lexeme hc (hus u List.mem_cons_self))) hrun, hd⟩

/-- **A group gives the texts of its tokens**, and leaves the loop outside of an escape. -/
theorem EscapeGroup.run {opening closing : Spanned} {us after : List Spanned}
    (h : EscapeGroup opening us closing) {m : Cursor}
    (hm : m.tokens = opening :: us ++ closing :: after) :
    ItemsRun false m (us.map Spanned.lexeme) false ⟨after, closing.span.stop⟩ := by
  have hopen : itemRule false m = .escape true := by
    have hcur : m.current = .mark .lbracket := by rw [Cursor.current, hm]; exact h.opens
    simp [itemRule, hcur]
  have hstep : m.step.tokens = us ++ closing :: after := by rw [Cursor.step, hm]; rfl
  obtain ⟨d, hrun, hd⟩ := lexemes_run hstep h.inner
  have hclose : itemRule true d = .escape false := by
    have hcur : d.current = .mark .rbracket := by rw [Cursor.current, hd]; exact h.closes
    simp [itemRule, hcur]
  have hlast : d.step = ⟨after, closing.span.stop⟩ := by rw [Cursor.step, hd]
  have hwhole := hrun.trans (.round (.escape hclose) .here)
  rw [hlast, List.nil_append, List.append_nil] at hwhole
  exact .round (.escape hopen) hwhole

/-- An `&` only separates. -/
theorem ampersand_run {amp : Spanned} (hamp : amp.token = .mark .ampersand) (after : List Spanned)
    (lastEnd : Nat) :
    ItemsRun false ⟨amp :: after, lastEnd⟩ [] false ⟨after, amp.span.stop⟩ := by
  have hcur : (Cursor.mk (amp :: after) lastEnd).current = .mark .ampersand := hamp
  exact .round (.skip (by simp [itemRule, hcur])) .here

/-- **With an `&` in the place of a group** a print statement has the same items before it and behind
it. -/
theorem EscapeGroup.replaces {opening closing : Spanned} {us after : List Spanned}
    (hgroup : EscapeGroup opening us closing) {k e m : Cursor} {items pre : List PrintItem}
    {span : Span} (h : print k = .ok (.print items span) e)
    (hrun : ItemsRun false k.step.step pre false m)
    (hm : m.tokens = opening :: us ++ closing :: after) :
    ∃ post, items = pre ++ us.map Spanned.lexeme ++ post ∧
      ∀ amp : Spanned, amp.token = .mark .ampersand →
        Replaces k e (k.splice m (amp :: after)).tokens (.print (pre ++ post) span) := by
  obtain ⟨_, hc, ht, hi, heq⟩ := print_eq_ok.1 h
  obtain ⟨rfl, -⟩ := Stmt.print.inj heq
  obtain ⟨_, rfl, hrest⟩ := hrun.items_iff.1 hi
  obtain ⟨post, rfl, hpost⟩ := (hgroup.run hm).items_iff.1 hrest
  refine ⟨post, (List.append_assoc ..).symm, fun amp hamp => ?_⟩
  obtain ⟨hc', ht', hstep, -⟩ :=
    Cursor.splice_of_two hc (by simp) ht (by simp) hrun.leadsTo (amp :: after)
  have hends : Ends ((amp :: after).map Spanned.token) := by
    rw [List.map_cons, hamp]
    exact ends_mark rfl rfl _
  -- up to the `&` the loop goes as before, and behind it the tokens are the same
  have hfront := hrun.before hends
  rw [Cursor.splice_self] at hfront
  have hskip := hfront.trans (ampersand_run hamp after m.lastEnd)
  obtain ⟨post₂, e₂, hi₂, hb, he₂⟩ := relocates_items false hpost
    (show (Cursor.mk after amp.span.stop).kinds = (Cursor.mk after closing.span.stop).kinds from rfl)
  have hitems := hskip.items_iff.2 ⟨post₂, rfl, hi₂⟩
  have hprint := Derives.print hc' ht' (hstep ▸ hitems)
  rw [← Cursor.splice_self_splice k m] at hprint hc'
  exact ⟨hc'.trans hc.symm, _, e₂, hprint, by simp [Stmt.bare, hb], he₂⟩

/-! ### Printing -/

section

variable {σ : Type} [Sink σ]

/-- Texts are added to the line, in any store. -/
theorem printItems_lexemes (span : Span) (line : String) (us : List Spanned) (post : List PrintItem) :
    (Exec.printItems span line (us.map Spanned.lexeme ++ post) : Exec σ Unit) =
      Exec.printItems span (line ++ String.join (us.map (·.token.literal))) post := by
  induction us generalizing line with
  | nil => simp
  | cons u us ih =>
      rw [List.map_cons, List.map_cons, String.join_cons, ← String.append_assoc, ← ih]
      rfl

/-- Items that print the same behind every line do so behind other items. -/
theorem printItems_behind {span : Span} {items items' : List PrintItem}
    (h : ∀ line, (Exec.printItems span line items : Exec σ Unit) = Exec.printItems span line items')
    (pre : List PrintItem) (line : String) :
    (Exec.printItems span line (pre ++ items) : Exec σ Unit) =
      Exec.printItems span line (pre ++ items') := by
  induction pre generalizing line with
  | nil => exact h line
  | cons i pre ih =>
      cases i <;> simp only [List.cons_append, Exec.printItems, ih]

end

/-- Texts never fail. -/
theorem failure?_lexemes (s : Store) (us : List Spanned) :
    ∀ i ∈ us.map Spanned.lexeme, i.failure? s = none := by
  intro i hi
  obtain ⟨u, -, rfl⟩ := List.mem_map.1 hi
  rfl

/-- Texts stand in one line, in order. -/
theorem segmentTexts_lexemes (s : Store) (us : List Spanned) :
    segmentTexts s (us.map Spanned.lexeme) = [String.join (us.map (·.token.literal))] := by
  induction us with
  | nil => exact segmentTexts_nil s
  | cons u us ih =>
      rw [List.map_cons, segmentTexts_cons s rfl, ih, List.modifyHead_cons, List.map_cons,
        String.join_cons]
      rfl

/-- What printing `pre`, then some texts, then `post` comes to: the texts are written between the last
line of the items before and the first line of the items behind.  Only an item before or behind can fail,
and then the lines that are closed up to there are written. -/
def PrintsBetween {σ : Type} (good : σ → Prop) (m : Machine (Tap σ)) (pre : List PrintItem)
    (texts : String) (post : List PrintItem)
    (r : EStateM.Result Halt (Machine (Tap σ)) Unit) : Prop :=
  let works := fun i : PrintItem => (i.failure? m.store).isNone
  let linesUpTo := fun behind => joinLines (joinLines (segmentTexts m.store pre) [texts])
    (segmentTexts m.store behind)
  match pre.findSome? (·.failure? m.store), post.findSome? (·.failure? m.store) with
  | some e, _ => ∃ m', r = .error (.error e) m' ∧
      Wrote good m (finishedLines (segmentTexts m.store (pre.takeWhile works))) m'
  | none, some e => ∃ m', r = .error (.error e) m' ∧
      Wrote good m (finishedLines (linesUpTo (post.takeWhile works))) m'
  | none, none => ∃ m', r = .ok () m' ∧
      Wrote good m (finishedLines (linesUpTo post) ++ lastLine (linesUpTo post)) m'

/-- The items before the first one that fails, where it is not among the first ones. -/
theorem takeWhile_works {s : Store} {items : List PrintItem}
    (h : items.findSome? (·.failure? s) = none) (behind : List PrintItem) :
    ((items ++ behind).takeWhile fun i => (i.failure? s).isNone) =
      items ++ behind.takeWhile fun i => (i.failure? s).isNone := by
  refine List.takeWhile_append_of_pos fun i hi => ?_
  rw [List.findSome?_eq_none_iff.1 h i hi]
  rfl

/-- The items before the first one that fails, where it is. -/
theorem takeWhile_fails {s : Store} {items : List PrintItem} {e : RuntimeError}
    (h : items.findSome? (·.failure? s) = some e) (behind : List PrintItem) :
    ((items ++ behind).takeWhile fun i => (i.failure? s).isNone) =
      items.takeWhile fun i => (i.failure? s).isNone := by
  obtain ⟨front, i, back, rfl, hi, hfront⟩ := List.findSome?_eq_some_iff.1 h
  have hnone := List.findSome?_eq_none_iff.2 hfront
  rw [List.append_assoc, List.cons_append, takeWhile_works hnone, takeWhile_works hnone]
  simp [hi]

/-- **Texts are written in order, behind the items before them and in front of those behind.** -/
theorem printsBetween_lexemes {σ : Type} [Sink σ] {good : σ → Prop} (h : Sink.Unfailing good)
    (span : Span) (pre : List PrintItem) (us : List Spanned) (post : List PrintItem)
    {m : Machine (Tap σ)} (hm : good m.sink.sink) :
    PrintsBetween good m pre (String.join (us.map (·.token.literal))) post
      (Exec.printItems span "" (pre ++ us.map Spanned.lexeme ++ post) m) := by
  have hprints := printItems_run h span "" (pre ++ us.map Spanned.lexeme ++ post) hm
  have hnone : (us.map Spanned.lexeme).findSome? (·.failure? m.store) = none :=
    List.findSome?_eq_none_iff.2 (failure?_lexemes m.store us)
  have hlines : ∀ behind, segmentTexts m.store (pre ++ (us.map Spanned.lexeme ++ behind)) =
      joinLines (joinLines (segmentTexts m.store pre) [String.join (us.map (·.token.literal))])
        (segmentTexts m.store behind) := by
    intro behind
    rw [← List.append_assoc, segmentTexts_append, segmentTexts_append, segmentTexts_lexemes]
  rw [List.append_assoc] at hprints ⊢
  rw [Prints, List.findSome?_append, List.findSome?_append, hnone, Option.none_or] at hprints
  simp only [modifyHead_empty] at hprints
  unfold PrintsBetween
  cases hpre : pre.findSome? (·.failure? m.store) with
  | some e =>
      rw [hpre, Option.some_or] at hprints
      simp only [takeWhile_fails hpre] at hprints
      exact hprints
  | none =>
      rw [hpre, Option.none_or] at hprints
      cases hpost : post.findSome? (·.failure? m.store) with
      | some e =>
          rw [hpost] at hprints
          simp only [takeWhile_works hpre, takeWhile_works hnone, hlines] at hprints
          exact hprints
      | none =>
          rw [hpost] at hprints
          simp only [hlines] at hprints
          exact hprints

/-! ### Anywhere in a program -/

namespace Cursor

/-- Of two places that are come to, one is come to from the other. -/
theorem LeadsTo.total {c k k' : Cursor} (h : c.LeadsTo k) (h' : c.LeadsTo k') :
    k.LeadsTo k' ∨ k'.LeadsTo k := by
  obtain ⟨run, htokens, hlast⟩ := h
  obtain ⟨run', htokens', hlast'⟩ := h'
  rcases List.append_eq_append_iff.1 (htokens.symm.trans htokens') with
    ⟨between, rfl, hk⟩ | ⟨between, rfl, hk⟩
  · refine .inl ⟨between, hk, ?_⟩
    rw [hlast', hlast, List.getLast?_append]
    cases between.getLast? <;> rfl
  · refine .inr ⟨between, hk, ?_⟩
    rw [hlast', hlast, List.getLast?_append]
    cases between.getLast? <;> rfl

theorem LeadsTo.eq_of_start {k k' : Cursor} (h : k.LeadsTo k')
    (hstarts : k.tokens.Pairwise fun t u => t.span.start < u.span.start) (hne : k'.tokens ≠ [])
    (heq : k.span.start = k'.span.start) : k = k' := by
  by_cases hnil : k.upTo k' = []
  · exact eq_of_upTo h hnil
  · obtain ⟨t, run, hrun⟩ := List.exists_cons_of_ne_nil hnil
    obtain ⟨u, rest, hu⟩ := List.exists_cons_of_ne_nil hne
    have htokens := h.takes.tokens
    rw [hrun, hu] at htokens
    rw [htokens] at hstarts
    have hlt := (List.pairwise_cons.1 hstarts).1 u (by simp)
    have hspan : k.span = t.span := by rw [Cursor.span, htokens]; rfl
    have hspan' : k'.span = u.span := by rw [Cursor.span, hu]
    rw [hspan, hspan'] at heq
    omega

end Cursor

/-- Every token of a text starts before the next one. -/
theorem Tiling.starts_lt {glued : Bool} {offset : Nat} {cs : List Char} {ts : List Spanned}
    (h : Tiling glued offset cs ts) : ts.Pairwise fun t u => t.span.start < u.span.start := by
  induction h with
  | stop _ => exact List.pairwise_singleton _ _
  | token _ hne _ _ hstop hrest ih =>
      refine .cons (fun u hu => ?_) ih
      have hpos := byteLength_pos hne
      have hle := hrest.offset_le u hu
      simp only
      omega

/-- Where every token starts before the next one, there is one place for a print statement with its
span. -/
theorem print_place_unique {ts : List Spanned}
    (hstarts : ts.Pairwise fun t u => t.span.start < u.span.start) {k k' e e' : Cursor} {s : Stmt}
    (hk : (Cursor.start ts).LeadsTo k) (hk' : (Cursor.start ts).LeadsTo k') (h : print k = .ok s e)
    (h' : print k' = .ok s e') : k = k' ∧ e = e' := by
  have hback : ∀ {k : Cursor}, (Cursor.start ts).LeadsTo k →
      k.tokens.Pairwise fun t u => t.span.start < u.span.start := by
    rintro k ⟨run, htokens, -⟩
    exact (List.pairwise_append.1 (show (run ++ k.tokens).Pairwise _ from htokens ▸ hstarts)).2.1
  have hne : ∀ {k : Cursor}, k.current = .word .ipakita → k.tokens ≠ [] := by
    intro k hc hnil
    rw [Cursor.current, hnil] at hc
    cases hc
  obtain ⟨is, hc, -, -, hs⟩ := print_eq_ok.1 h
  obtain ⟨is', hc', -, -, hs'⟩ := print_eq_ok.1 h'
  have hspan : k.span.start = k'.span.start :=
    (Span.mk.inj (Stmt.print.inj (hs.symm.trans hs')).2).1
  have heq : k = k' := by
    rcases hk.total hk' with hto | hto
    · exact hto.eq_of_start (hback hk) (hne hc') hspan
    · exact (hto.eq_of_start (hback hk') (hne hc) hspan.symm).symm
  subst heq
  cases h.symm.trans h'
  exact ⟨rfl, rfl⟩

/-- **Escapes in print statements give the texts of their tokens.**  Every print statement of a program,
which is `body` around it, is read at some place of its tokens.  Wherever the loop that reads its items
comes to a group, outside of an escape and with the items `pre` made, the items of the group are the
texts of its tokens, and the loop is outside again.  With an `&` in the place of the group the program is
the same, but for its places and for these items.  No item of the group names a variable, and running the
statement adds the texts to the line, in any store: they are written in order, between what the items
before the group print and what those behind it print. -/
theorem escape_emits_lexemes {text : String} {ts : List Spanned} {p : Parsed}
    (hlex : tokenize text = .ok ts) (hparse : parseTokens ts = .ok p) {body : Stmt → List Stmt}
    (hbody : Around fun s => .body (.word .katapusan) (body s)) {items : List PrintItem} {span : Span}
    (hprint : p.program.body = body (.print items span)) :
    (∃ k e, (Cursor.start ts).LeadsTo k ∧ print k = .ok (.print items span) e) ∧
    ∀ (k e m : Cursor) (pre : List PrintItem) (opening closing : Spanned) (us after : List Spanned),
      (Cursor.start ts).LeadsTo k → print k = .ok (.print items span) e →
      ItemsRun false k.step.step pre false m → EscapeGroup opening us closing →
      m.tokens = opening :: us ++ closing :: after →
      ItemsRun false m (us.map Spanned.lexeme) false ⟨after, closing.span.stop⟩ ∧
      ∃ before post, ts = before ++ m.tokens ∧ items = pre ++ us.map Spanned.lexeme ++ post ∧
        (∀ amp : Spanned, amp.token = .mark .ampersand →
          ∃ p', parseTokens (before ++ amp :: after) = .ok p' ∧
            bareBody p'.program.body = bareBody (body (.print (pre ++ post) span)) ∧
            p'.trailing.isSome = p.trailing.isSome) ∧
        (us.map Spanned.lexeme).flatMap PrintItem.names = [] ∧
        ∀ {σ : Type} [Sink σ],
          let texts := String.join (us.map (·.token.literal))
          (∀ {good : σ → Prop}, Sink.Unfailing good → ∀ (fuel : Nat) (m : Machine (Tap σ)),
            good m.sink.sink →
            PrintsBetween good m pre texts post ((Stmt.print items span).exec fuel m)) ∧
          (∀ line, (Exec.printItems span line (us.map Spanned.lexeme ++ post) : Exec σ Unit) =
            Exec.printItems span (line ++ texts) post) ∧
          ∀ (place : Span) (fuel : Nat), ((Stmt.print items span).exec fuel : Exec σ Unit) =
            (Stmt.print (pre ++ .text texts place :: post) span).exec fuel := by
  obtain ⟨k₀, e₀, hto, hderives, hrep⟩ := parseTokens_stand hparse hbody hprint
  have hreads : print k₀ = .ok (.print items span) e₀ := by
    cases hderives with
    | print hc ht hi => exact print_eq_ok.2 ⟨items, hc, ht, hi, rfl⟩
  refine ⟨⟨k₀, e₀, hto, hreads⟩, ?_⟩
  intro k e m pre opening closing us after hk hread hrun hgroup hm
  obtain ⟨herror, rfl⟩ := Scan.result_eq_ok.1 hlex
  obtain ⟨rfl, rfl⟩ := print_place_unique (tiling_of_scan (.start text.toList) herror).starts_lt hto hk
    hreads hread
  have hkm : k₀.LeadsTo m := k₀.leadsTo_step.step.trans hrun.leadsTo
  obtain ⟨post, hitems, hreplaces⟩ := hgroup.replaces hreads hrun hm
  refine ⟨hgroup.run hm, _, post, (hto.trans hkm).takes.tokens, hitems, fun amp hamp => ?_, ?_,
    fun {σ} _ => ⟨fun hgood fuel m hm => ?_, fun line => printItems_lexemes span line us post,
      fun place fuel => ?_⟩⟩
  · obtain ⟨p', hp', hsame⟩ := hrep _ _ (hreplaces amp hamp)
    rw [Cursor.splice, ← List.append_assoc, ← Cursor.upTo_trans hto hkm] at hp'
    exact ⟨p', hp', hsame⟩
  · rw [List.flatMap_eq_nil_iff]
    intro i hi
    obtain ⟨u, -, rfl⟩ := List.mem_map.1 hi
    rfl
  · subst hitems
    exact printsBetween_lexemes hgood span pre us post hm
  · subst hitems
    show Exec.printItems span "" _ = Exec.printItems span "" _
    rw [List.append_assoc]
    exact printItems_behind (fun line => printItems_lexemes span line us post) pre ""

/-- The tokens before a group, of a print statement in a block. -/
def beforeGroup : List Spanned :=
  [⟨⟨0, 5⟩, .word .sugod⟩, ⟨⟨6, 10⟩, .word .kung⟩, ⟨⟨11, 12⟩, .mark .lparen⟩, ⟨⟨12, 14⟩, .oo⟩,
    ⟨⟨14, 15⟩, .mark .rparen⟩, ⟨⟨16, 22⟩, .word .pundok⟩, ⟨⟨23, 24⟩, .mark .lbrace⟩,
    ⟨⟨25, 32⟩, .word .ipakita⟩, ⟨⟨32, 33⟩, .mark .colon⟩, ⟨⟨34, 35⟩, .name "a"⟩]

/-- The tokens behind it. -/
def behindGroup : List Spanned :=
  [⟨⟨46, 47⟩, .name "b"⟩, ⟨⟨48, 49⟩, .mark .rbrace⟩, ⟨⟨50, 59⟩, .word .katapusan⟩, ⟨.point 59, .eof⟩]

/-- A machine with letters in both variables. -/
def printed : Machine Buffer :=
  ⟨(Store.empty.declare "a" .letra (.text "p")).declare "b" .letra (.text "q"), [], .unlimited, #[]⟩

/-- What looks like an assignment, an `&` and an opening bracket, between two variables. -/
theorem escape_emits_lexemes_assignment :
    let us : List Spanned := [⟨⟨37, 38⟩, .name "x"⟩, ⟨⟨39, 40⟩, .mark .assign⟩,
      ⟨⟨41, 42⟩, .mark .ampersand⟩, ⟨⟨43, 44⟩, .mark .lparen⟩]
    let body : Stmt → List Stmt := fun s =>
      [.conditional (.bool true ⟨12, 14⟩) (.mk [s] ⟨16, 49⟩) .nothing ⟨6, 49⟩]
    let a : PrintItem := .var ⟨"a", ⟨34, 35⟩⟩
    let b : PrintItem := .var ⟨"b", ⟨46, 47⟩⟩
    tokenize "SUGOD KUNG (OO) PUNDOK \x7b IPAKITA: a [x = & (] b \x7d KATAPUSAN" =
        .ok (beforeGroup ++ ⟨⟨36, 37⟩, .mark .lbracket⟩ :: us ++
          ⟨⟨44, 45⟩, .mark .rbracket⟩ :: behindGroup) ∧
      parseTokens (beforeGroup ++ ⟨⟨36, 37⟩, .mark .lbracket⟩ :: us ++
          ⟨⟨44, 45⟩, .mark .rbracket⟩ :: behindGroup) =
        .ok ⟨⟨body (.print (a :: us.map Spanned.lexeme ++ [b]) ⟨25, 47⟩), ⟨0, 59⟩⟩, none⟩ ∧
      ∃ p', parseTokens (beforeGroup ++ ⟨⟨36, 45⟩, .mark .ampersand⟩ :: behindGroup) = .ok p' ∧
        bareBody p'.program.body = bareBody (body (.print [a, b] ⟨25, 47⟩)) ∧
      ∃ m', (Stmt.print (a :: us.map Spanned.lexeme ++ [b]) ⟨25, 47⟩).exec 0 printed.tapped =
          .ok () m' ∧
        m'.sink.taken = Utf8.encode "px=&(q\n" := by
  intro us body a b
  have hlex : tokenize "SUGOD KUNG (OO) PUNDOK \x7b IPAKITA: a [x = & (] b \x7d KATAPUSAN" =
      .ok (beforeGroup ++ ⟨⟨36, 37⟩, .mark .lbracket⟩ :: us ++
        ⟨⟨44, 45⟩, .mark .rbracket⟩ :: behindGroup) := by
    with_unfolding_all rfl
  have hbody : Around fun s => .body (.word .katapusan) (body s) :=
    .head (.firstBody (.block (.head .here)))
  obtain ⟨-, hgroups⟩ := @escape_emits_lexemes _ _
    ⟨⟨body (.print (a :: us.map Spanned.lexeme ++ [b]) ⟨25, 47⟩), ⟨0, 59⟩⟩, none⟩ hlex rfl body hbody
    (a :: us.map Spanned.lexeme ++ [b]) ⟨25, 47⟩ rfl
  obtain ⟨-, before, post, hts, hitems, hamp, -, hruns⟩ := hgroups
    ⟨beforeGroup.drop 7 ++ ⟨⟨36, 37⟩, .mark .lbracket⟩ :: us ++
      ⟨⟨44, 45⟩, .mark .rbracket⟩ :: behindGroup, 24⟩ ⟨behindGroup.drop 1, 47⟩
    ⟨⟨⟨36, 37⟩, .mark .lbracket⟩ :: us ++ ⟨⟨44, 45⟩, .mark .rbracket⟩ :: behindGroup, 35⟩ [a]
    ⟨⟨36, 37⟩, .mark .lbracket⟩ ⟨⟨44, 45⟩, .mark .rbracket⟩ us behindGroup
    ⟨beforeGroup.take 7, rfl, rfl⟩ rfl (.round (.item rfl) .here)
    ⟨rfl, rfl, by simp [us, Token.Escapable, Token.isReserved]⟩ rfl
  obtain rfl : before = beforeGroup := (List.append_cancel_right hts).symm
  obtain rfl : post = [b] := (List.append_cancel_left hitems).symm
  obtain ⟨p', hp', hsame, -⟩ := hamp ⟨⟨36, 45⟩, .mark .ampersand⟩ rfl
  obtain ⟨m', hrun, hwrote⟩ := hruns.1 Buffer.unfailing 0 printed.tapped ⟨rfl, rfl⟩
  exact ⟨hlex, rfl, p', hp', hsame, m', hrun, hwrote.taken⟩

end BisayaLang
