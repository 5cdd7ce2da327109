/-
**Where the tokens of a tree come from.**

Every token of a tree was read from some token of the source, in the same order.  Most are kept as they
were, but for brackets and the mark of assignment.  Brackets and separators among printed items are
dropped, and other separators are put between the items.  And a printed token may be kept as the text
that it is spelled as.

None of this makes up a text that could not be spelled, or a minus sign; and no double quote is lost.

Main definitions:

* `BisayaLang.Renders` — tokens of a source and the tokens that are written back for them;
* `BisayaLang.Covers` — tokens that are written back for what stands between two cursors.

Main results:

* `BisayaLang.ProgramReads.covers` — the tokens of a program are written back for those it was read from;
* `BisayaLang.Renders.spellable`, `BisayaLang.Renders.dashes_le`, `BisayaLang.Renders.quotes_le` — what
  is written back can be spelled, has no more minus signs, and no fewer double quotes.
-/

import BisayaLang.Proofs.Canonical.Reparse
import BisayaLang.Proofs.Token.Spelling

set_option relaxedAutoImplicit false
set_option autoImplicit false

namespace BisayaLang

open Climb Parse Text

/-! ### Tokens that are written back -/

/-- The mark only separates or escapes printed items. -/
def Mark.isLayout : Mark → Bool
  | .ampersand | .lbracket | .rbracket => true
  | _ => false

/-- The second tokens are written back for the first. -/
inductive Renders : List Token → List Token → Prop
  | nil : Renders [] []
  | keep {t : Token} {ts us : List Token} : Renders ts us → Renders (t :: ts) (t.tidy :: us)
  | drop {m : Mark} {ts us : List Token} : m.isLayout = true → Renders ts us →
      Renders (.mark m :: ts) us
  | separate {ts us : List Token} : Renders ts us → Renders ts (.mark .ampersand :: us)
  | quote {t : Token} {ts us : List Token} : Renders ts us →
      Renders (t :: ts) (.text t.literal :: us)

theorem Renders.append {ts us ts' us' : List Token} (h : Renders ts us) (h' : Renders ts' us') :
    Renders (ts ++ ts') (us ++ us') := by
  induction h with
  | nil => exact h'
  | keep _ ih => exact .keep ih
  | drop hm _ ih => exact .drop hm ih
  | separate _ ih => exact .separate ih
  | quote _ ih => exact .quote ih

theorem renders_map_tidy (ts : List Token) : Renders ts (ts.map Token.tidy) := by
  induction ts with
  | nil => exact .nil
  | cons t ts ih => exact .keep ih

/-! ### What is written back -/

theorem spellable_tidy {t : Token} (h : t.Spellable) : t.tidy.Spellable := by
  unfold Token.tidy
  split
  · trivial
  · trivial
  · trivial
  · rename_i s
    rw [Token.ofNumber, if_neg fun hdot => ?_]
    · exact h
    · exact absurd (h.2 '.' hdot) (by decide)
  · rename_i s
    have hdot : '.' ∈ s.toList := by
      obtain ⟨whole, fraction, hs, -⟩ := h
      rw [hs]
      simp
    rw [Token.ofNumber, if_pos hdot]
    exact h
  · exact h

/-- The spelling of a token that can be spelled is a text that can be quoted. -/
theorem spellable_quote {t : Token} (h : t.Spellable) : (Token.text t.literal).Spellable := by
  have hclass : ∀ {p : Char → Bool} {s : String},
      (∀ {c : Char}, p c = true → foldQuote c = c ∧ c ≠ '"' ∧ c ≠ '\'') →
      (∀ c ∈ s.toList, p c = true) → (Token.text s).Spellable := by
    intro p s hp hs
    exact ⟨fun c hc => (hp (hs c hc)).1, fun hq => absurd rfl (hp (hs _ hq)).2.1⟩
  -- the tokens of one spelling hold no quotes, whatever class their characters are in
  have hfixed : ∀ {s : String}, (s.toList.any fun c => foldQuote c ≠ c || c = '"') = false →
      (Token.text s).Spellable := by
    intro s hs
    simp only [List.any_eq_false, Bool.or_eq_true, decide_eq_true_eq, not_or, Decidable.not_not] at hs
    exact ⟨fun c hc => (hs c hc).1, fun hq => absurd rfl (hs _ hq).2⟩
  cases t with
  | name s => exact hclass foldQuote_of_continuesName h.2.1
  | integer s => exact hclass foldQuote_of_digit h.2
  | decimal s =>
      obtain ⟨whole, fraction, hs, -, -, hw, hf⟩ := h
      have hp : ∀ {c : Char}, (isDigit c || c == '.') = true → _ :=
        foldQuote_of_class (p := fun c => isDigit c || c == '.') (by decide)
      refine hclass hp fun c hc => ?_
      change c ∈ s.toList at hc
      rw [hs] at hc
      rcases List.mem_append.1 hc with hc | hc
      · simp [hw c hc]
      · rcases List.mem_cons.1 hc with rfl | hc
        · rfl
        · simp [hf c hc]
  | text s => exact h
  | oo => exact hfixed (by decide)
  | dili => exact hfixed (by decide)
  | word w => cases w <;> exact hfixed (by decide)
  | type t => cases t <;> exact hfixed (by decide)
  | op o => rcases o with (_ | _ | _ | _ | _) | (_ | _ | _ | _ | _ | _) | (_ | _) <;>
      exact hfixed (by decide)
  | step s => cases s <;> exact hfixed (by decide)
  | mark m => cases m <;> exact hfixed (by decide)
  | eof => exact hfixed (by decide)

theorem Renders.spellable {ts us : List Token} (h : Renders ts us) (hts : ∀ t ∈ ts, t.Spellable) :
    ∀ u ∈ us, u.Spellable := by
  induction h with
  | nil => exact fun u hu => absurd hu (by simp)
  | keep _ ih =>
      intro u hu
      rcases List.mem_cons.1 hu with rfl | hu
      · exact spellable_tidy (hts _ (by simp))
      · exact ih (fun t ht => hts t (by simp [ht])) u hu
  | drop _ _ ih => exact ih fun t ht => hts t (by simp [ht])
  | separate _ ih =>
      intro u hu
      rcases List.mem_cons.1 hu with rfl | hu
      · trivial
      · exact ih hts u hu
  | quote _ ih =>
      intro u hu
      rcases List.mem_cons.1 hu with rfl | hu
      · exact spellable_quote (hts _ (by simp))
      · exact ih (fun t ht => hts t (by simp [ht])) u hu

theorem dashes_tidy (t : Token) : t.tidy.dashes = t.dashes :=
  Token.apply_tidy (f := Token.dashes) (by decide) (by decide) (by decide) (fun _ => rfl) t

theorem quotes_tidy (t : Token) : t.tidy.quotes = t.quotes :=
  Token.apply_tidy (f := Token.quotes) rfl rfl rfl (fun _ => rfl) t

theorem Renders.dashes_le {ts us : List Token} (h : Renders ts us) : dashes us ≤ dashes ts := by
  induction h with
  | nil => exact Nat.le_refl _
  | keep _ ih =>
      rw [dashes_cons, dashes_cons, dashes_tidy]
      omega
  | drop _ _ ih =>
      rw [dashes_cons]
      omega
  | separate _ ih =>
      have h0 : (Token.mark .ampersand).dashes = 0 := rfl
      rw [dashes_cons, h0]
      omega
  | @quote t _ _ _ ih =>
      have h0 : (Token.text t.literal).dashes = t.dashes := rfl
      rw [dashes_cons, dashes_cons, h0]
      omega

theorem Renders.quotes_le {ts us : List Token} (h : Renders ts us) : quotes ts ≤ quotes us := by
  induction h with
  | nil => exact Nat.le_refl _
  | keep _ ih =>
      rw [quotes_cons, quotes_cons, quotes_tidy]
      omega
  | drop _ _ ih =>
      rw [quotes_cons, show (Token.mark _).quotes = 0 from rfl]
      omega
  | separate _ ih =>
      rw [quotes_cons]
      omega
  | @quote t _ _ _ ih =>
      have ht : t.quotes ≤ (Token.text t.literal).quotes := by
        cases t with
        | text s => exact Nat.le_refl _
        | _ => exact Nat.zero_le _
      rw [quotes_cons, quotes_cons]
      omega

/-! ### Between two cursors -/

/-- The tokens are written back for those between the two cursors. -/
def Covers (c d : Cursor) (us : List Token) : Prop :=
  ∃ ts, c.kinds = ts ++ d.kinds ∧ Renders ts us

theorem Covers.refl (c : Cursor) : Covers c c [] := ⟨[], rfl, .nil⟩

theorem Covers.trans {c m d : Cursor} {us us' : List Token} (h : Covers c m us)
    (h' : Covers m d us') : Covers c d (us ++ us') := by
  obtain ⟨ts, hk, hr⟩ := h
  obtain ⟨ts', hk', hr'⟩ := h'
  exact ⟨ts ++ ts', by rw [hk, hk', List.append_assoc], hr.append hr'⟩

/-- A token that is kept. -/
theorem covers_step {c : Cursor} {t : Token} (h : c.current = t) (ht : t ≠ .eof) :
    Covers c c.step [t.tidy] := by
  subst h
  exact ⟨[c.current], Cursor.kinds_of_current ht, .keep .nil⟩

theorem Covers.cons {c d : Cursor} {t : Token} {us : List Token} (h : c.current = t)
    (ht : t ≠ .eof) (h' : Covers c.step d us) : Covers c d (t.tidy :: us) :=
  (covers_step h ht).trans h'

theorem covers_assign {c : Cursor} (h : c.current.isAssign = true) :
    Covers c c.step [.mark .assign] := by
  cases hc : c.current with
  | mark m =>
      rw [hc] at h
      cases m <;> first | exact covers_step hc (by simp) | cases h
  | _ =>
      rw [hc] at h
      cases h

theorem Reads.covers {min : Nat} {c d : Cursor} {e : Expr} (h : Reads min c e d) :
    Covers c d e.tokens := by
  obtain ⟨run, -, hrun, hks⟩ := h.kinds_eq
  exact ⟨run, hrun, hks ▸ renders_map_tidy run⟩

theorem NameReads.covers {c d : Cursor} {n : Name} (h : NameReads c n d) :
    Covers c d [.name n.text] := by
  obtain ⟨hc, -, rfl⟩ := h
  exact covers_step hc (by simp)

theorem DeclaredReads.covers {c d : Cursor} {v : Declared} (h : DeclaredReads c v d) :
    Covers c d v.tokens := by
  cases h with
  | plain hn _ => exact hn.covers
  | value hn ha he => exact hn.covers.trans ((covers_assign ha).trans he.1.covers)

theorem TargetReads.covers {c d : Cursor} {n : Name} (h : TargetReads c n d) :
    Covers c d [.name n.text, .mark .assign] := by
  obtain ⟨hn, ha, rfl⟩ := h
  exact hn.covers.trans (covers_assign ha)

theorem Many.covers {α : Type} {more : Cursor → Bool} {R : Cursor → α → Cursor → Prop}
    {tokens : α → List Token} (hR : ∀ c a d, more c = true → R c a d → Covers c d (tokens a))
    {c d : Cursor} {as : List α} (h : Many more R c as d) : Covers c d (as.flatMap tokens) := by
  induction h with
  | nil _ => exact .refl _
  | cons hm hr _ ih =>
      rw [List.flatMap_cons]
      exact (hR _ _ _ hm hr).trans ih

theorem CommaList.covers {α : Type} {R : Cursor → α → Cursor → Prop} {tokens : α → List Token}
    (hR : ∀ c a d, R c a d → Covers c d (tokens a)) {c d : Cursor} {as : List α}
    (h : CommaList R c as d) : Covers c d (separated (.mark .comma) (as.map tokens)) := by
  obtain ⟨ha, has⟩ := h
  rw [List.map_cons, separated, List.flatMap_map]
  refine (hR _ _ _ ha).trans (has.covers fun c a d hc hr => ?_)
  exact .cons (by simpa [atComma] using hc) (by simp) (hR _ _ _ hr)

theorem AssignmentReads.covers {c d : Cursor} {a : Assignment} (h : AssignmentReads c a d) :
    Covers c d a.tokens := by
  obtain ⟨ht, hts, he⟩ := h
  rw [Assignment.tokens, List.flatMap_cons, List.append_assoc]
  exact ht.covers.trans ((hts.covers fun _ _ _ _ h => h.covers).trans he.1.covers)

theorem TestReads.covers {c d : Cursor} {e : Expr} (h : TestReads c e d) :
    Covers c d (.mark .lparen :: (e.tokens ++ [.mark .rparen])) := by
  obtain ⟨hc, he, hd⟩ := h
  exact .cons hc (by simp) (he.1.covers.trans (covers_step hd (by simp)))

theorem LoopHead.covers {c d : Cursor} {first : Assignment} {test : Expr} {counter : Name}
    {step : Step} (h : LoopHead c first test counter step d) :
    Covers c d (.word .alang :: .word .sa :: .mark .lparen :: (first.tokens ++ .mark .comma ::
      (test.tokens ++ .mark .comma :: .name counter.text :: .step step :: [.mark .rparen]))) := by
  obtain ⟨hc, hs, hl, ha, hm, he, hm', hn, hstep, hr, rfl⟩ := h
  refine .cons hc (by simp) (.cons hs (by simp) (.cons hl (by simp) (ha.covers.trans ?_)))
  refine .cons hm (by simp) (he.1.covers.trans (.cons hm' (by simp) (hn.covers.trans ?_)))
  exact .cons hstep (by simp) (covers_step hr (by simp))

/-! ### Print items -/

/-- What a token means among printed items says how it is written back. -/
theorem itemRule_written (escaped : Bool) (c : Cursor) :
    match itemRule escaped c with
    | .escape _ => ∃ m : Mark, c.current = .mark m ∧ m.isLayout = true
    | .skip => ∃ m : Mark, c.current = .mark m ∧ m.isLayout = true
    | .item i => c.current ≠ .eof ∧
        (i.tokens = [.text c.current.literal] ∨ i.tokens = [c.current.tidy])
    | _ => True := by
  cases hc : c.current with
  | mark m =>
      cases m <;> cases escaped <;>
        simp [itemRule, hc, PrintItem.tokens, Token.tidy, Mark.isLayout]
  | integer s | decimal s =>
      cases escaped <;> cases hb : c.peek.isArithmetic <;>
        simp [itemRule, hc, hb, PrintItem.tokens]
  | name s =>
      cases escaped <;> cases ha : c.peek.isAssign <;> cases hb : c.peek.isArithmetic <;>
        simp [itemRule, hc, ha, hb, PrintItem.tokens, Token.tidy]
  | _ => simp [itemRule, hc, PrintItem.tokens]

/-- Items that are written behind another one have a separator before them. -/
theorem Covers.separate {c d : Cursor} {is : List PrintItem}
    (h : Covers c d (separated (.mark .ampersand) (is.map PrintItem.tokens))) :
    Covers c d ((is.map PrintItem.tokens).flatMap (.mark .ampersand :: ·)) := by
  cases is with
  | nil => exact h
  | cons i is =>
      obtain ⟨ts, hk, hr⟩ := h
      exact ⟨ts, hk, .separate hr⟩

theorem Items.covers {escaped : Bool} {c d : Cursor} {is : List PrintItem}
    (h : Items escaped c is d) :
    Covers c d (separated (.mark .ampersand) (is.map PrintItem.tokens)) := by
  have hdrop : ∀ {c d : Cursor} {us : List Token},
      (∃ m : Mark, c.current = .mark m ∧ m.isLayout = true) → Covers c.step d us → Covers c d us := by
    rintro c d us ⟨m, hc, hm⟩ ⟨ts, hk, hr⟩
    refine ⟨.mark m :: ts, ?_, .drop hm hr⟩
    rw [Cursor.kinds_of_current (by simp [hc]), hc, hk, List.cons_append]
  induction h with
  | stop _ => exact .refl _
  | @escape escaped _ c _ _ hr _ ih =>
      have hw := itemRule_written escaped c
      rw [hr] at hw
      exact hdrop hw ih
  | @skip escaped c _ _ hr _ ih =>
      have hw := itemRule_written escaped c
      rw [hr] at hw
      exact hdrop hw ih
  | @item escaped c _ i _ hr _ ih =>
      have hw := itemRule_written escaped c
      rw [hr] at hw
      obtain ⟨hne, hi⟩ := hw
      rw [List.map_cons, separated]
      refine Covers.trans ?_ ih.separate
      rcases hi with hi | hi
      · rw [hi]
        exact ⟨[c.current], Cursor.kinds_of_current hne, .quote .nil⟩
      · rw [hi]
        exact covers_step rfl hne
  | expression _ he _ ih =>
      rw [List.map_cons, separated]
      exact he.1.covers.trans ih.separate

/-! ### Statements and programs -/

theorem covers_kung {c d : Cursor} {t : Token} {us : List Token} (h : atKung t c = true)
    (ht : t ≠ .eof) (hd : Covers c.step.step d us) : Covers c d (.word .kung :: t.tidy :: us) := by
  simp only [atKung, Bool.and_eq_true, beq_iff_eq] at h
  rw [Cursor.peek_eq] at h
  exact .cons h.1 (by simp) (.cons h.2 ht hd)

/-- **The tokens of a tree are written back for those it was read from.** -/
theorem Derives.covers {c d : Cursor} {n : Node} (h : Derives c n d) : Covers c d n.tokens := by
  induction h with
  | declaration hc ht hv =>
      exact .cons hc (by simp) (.cons ht (by simp) (hv.covers fun _ _ _ h => h.covers))
  | assignment ha => exact ha.covers
  | print hc hl hi => exact .cons hc (by simp) (.cons hl (by simp) hi.covers)
  | input hc hl hn =>
      exact .cons hc (by simp) (.cons hl (by simp) (hn.covers fun _ _ _ h => h.covers))
  | conditional hc ht _ _ ihb ihr =>
      have h := Covers.cons hc (by simp) (ht.covers.trans (ihb.trans ihr))
      simp only [List.cons_append, List.append_assoc, List.nil_append] at h
      exact h
  | loop hh _ ih =>
      have h := hh.covers.trans ih
      simp only [List.cons_append, List.append_assoc, List.nil_append] at h
      exact h
  | block hc hl _ hr ih =>
      exact .cons hc (by simp) (.cons hl (by simp) (ih.trans (covers_step hr (by simp))))
  | nothing _ _ => exact .refl _
  | branch hd ht _ _ ihb ihr =>
      have h := covers_kung hd (by simp) (ht.covers.trans (ihb.trans ihr))
      simp only [List.cons_append, List.append_assoc, List.nil_append] at h
      exact h
  | always hw _ ih => exact covers_kung hw (by simp) ih
  | nil _ => exact .refl _
  | cons _ _ _ ihs ihb => exact ihs.trans ihb

theorem ProgramReads.covers {c d : Cursor} {p : Program} (h : ProgramReads c p d) :
    Covers c d p.tokens := by
  obtain ⟨hc, hss, hm⟩ := h
  exact .cons hc (by simp) (hss.covers.trans (covers_step hm (by simp)))

end BisayaLang
