/-
**Parsers that can be completed.**

A parser that stops with an error has read the start of a part.  Here are the rules by which this is shown
for parsers that are put together from others: a part that was not begun is made from scratch, a part that
was begun is completed, and the parts before it are read as they were, since what completes the next part
cannot be taken for more of them.

Main definitions:

* `BisayaLang.Carries` — a part is read in the same way before any tokens of a kind;
* `BisayaLang.Seq`, `BisayaLang.OneToken` — two parts, one behind the other, and parts of one token;
* `BisayaLang.Opens` — a part can be made from scratch;
* `BisayaLang.Repairs`, `BisayaLang.Fixes` — where a parser stops, what it has read can be completed.

Main results:

* `BisayaLang.Repairs.bind` — **the rule for one parser behind another**;
* `BisayaLang.fixes_oneToken` — parsers of one token;
* `BisayaLang.fixes_expression`, `BisayaLang.fixes_repeatWhile`, `BisayaLang.fixes_commaList` —
  expressions, and several parts of one kind.
-/

import BisayaLang.Proofs.Grammar.Completion

set_option relaxedAutoImplicit false
set_option autoImplicit false

namespace BisayaLang

open Climb Parse

/-! ### Parts, and parsers that can be completed -/

/-- A part is a run of tokens, and is read in the same way before any tokens that `F` allows. -/
structure Carries (R : Cursor → Cursor → Prop) (F : List Token → Prop) : Prop where
  leadsTo : ∀ {c d : Cursor}, R c d → c.LeadsTo d
  splice : ∀ {c d : Cursor} {new : List Spanned}, R c d → F (new.map Spanned.token) →
    R (c.splice d new) (d.splice d new)

/-- A part behind another. -/
def Seq (R S : Cursor → Cursor → Prop) (c d : Cursor) : Prop := ∃ m, R c m ∧ S m d

/-- Some tree of the kind stands there. -/
def Stretch {α : Type} (R : Cursor → α → Cursor → Prop) (c d : Cursor) : Prop := ∃ a, R c a d

/-- The parser reads the part.  If it stops with an error, the error points at the next token, and what
was read can be completed before any tokens that `F` allows. -/
def Repairs {α : Type} (p : Parse α) (R : Cursor → Cursor → Prop) (F : List Token → Prop)
    (c : Cursor) : Prop :=
  match p c with
  | .ok _ m => R c m
  | .error e d => e.PointsAt d ∧ c.LeadsTo d ∧ ∃ w, Completes R F c d w

/-- The part can be made from scratch. -/
def Opens (R : Cursor → Cursor → Prop) (F : List Token → Prop) : Prop :=
  ∃ w, ∀ (z : List Spanned) (lastEnd : Nat), F (z.map Spanned.token) →
    ∃ m, R ⟨unplaced w ++ z, lastEnd⟩ m ∧ m.tokens = z

/-- The part can be made from scratch, and the parser can be completed wherever at most `n` tokens are
left. -/
structure Fixes {α : Type} (n : Nat) (p : Parse α) (R : Cursor → Cursor → Prop)
    (F : List Token → Prop) : Prop where
  opens : Opens R F
  run : ∀ c : Cursor, c.tokens.length ≤ n → Repairs p R F c

section

variable {α β : Type} {R S R' : Cursor → Cursor → Prop} {F G F' : List Token → Prop}
  {p : Parse α} {n : Nat}

theorem Local.carries {R : Cursor → α → Cursor → Prop} (h : Local R F) : Carries (Stretch R) F where
  leadsTo := fun ⟨_, ha⟩ => h.leadsTo ha
  splice := fun ⟨a, ha⟩ hF => ⟨a, h.splice ha hF⟩

/-- A part is read in the same way when the tokens further behind it are changed. -/
theorem Carries.through (hR : Carries R F) {c m d : Cursor} {new : List Spanned} (h : R c m)
    (hm : m.LeadsTo d) (hF : F (m.splice d new).kinds) :
    R (c.splice d new) (m.splice d new) := by
  have hr := hR.splice h (show F ((m.splice d new).tokens.map Spanned.token) from hF)
  rwa [Cursor.splice_splice (hR.leadsTo h) hm, Cursor.splice_self_splice] at hr

theorem Carries.seq (hR : Carries R F) (hS : Carries S G)
    (hFG : ∀ c m, S c m → G m.kinds → F c.kinds) : Carries (Seq R S) G where
  leadsTo := fun ⟨_, hr, hs⟩ => (hR.leadsTo hr).trans (hS.leadsTo hs)
  splice := by
    rintro c d new ⟨m, hr, hs⟩ hG
    have hs' := hS.splice hs hG
    refine ⟨_, hR.through hr (hS.leadsTo hs) (hFG _ _ hs' ?_), hs'⟩
    rw [Cursor.splice_self]
    exact hG

theorem Repairs.ok {c m : Cursor} {a : α} (h : Repairs p R F c) (hp : p c = .ok a m) : R c m := by
  unfold Repairs at h
  rwa [hp] at h

theorem Repairs.error {c d : Cursor} {e : SyntaxError} (h : Repairs p R F c)
    (hp : p c = .error e d) : e.PointsAt d ∧ c.LeadsTo d ∧ ∃ w, Completes R F c d w := by
  unfold Repairs at h
  rwa [hp] at h

/-- The two things to show of a parser. -/
theorem repairs_of {c : Cursor} (hok : ∀ a m, p c = .ok a m → R c m)
    (herr : ∀ e d, p c = .error e d → e.PointsAt d ∧ c.LeadsTo d ∧ ∃ w, Completes R F c d w) :
    Repairs p R F c := by
  unfold Repairs
  split
  · exact hok _ _ ‹_›
  · exact herr _ _ ‹_›

theorem Repairs.congr {q : Parse α} {c : Cursor} (h : Repairs q R F c) (heq : p c = q c) :
    Repairs p R F c := by
  unfold Repairs at h ⊢
  rwa [heq]

theorem Repairs.mono {c : Cursor} (h : Repairs p R F c) (hR : ∀ c m, R c m → R' c m)
    (hF : ∀ ts, F' ts → F ts) : Repairs p R' F' c := by
  refine repairs_of (fun a m hp => hR _ _ (h.ok hp)) fun e d hp => ?_
  obtain ⟨hpoint, hto, w, hw⟩ := h.error hp
  refine ⟨hpoint, hto, w, fun z hz => ?_⟩
  obtain ⟨m, hm, hz'⟩ := hw z (hF _ hz)
  exact ⟨m, hR _ _ hm, hz'⟩

theorem Fixes.mono (h : Fixes n p R F) (hR : ∀ c m, R c m → R' c m)
    (hF : ∀ ts, F' ts → F ts) : Fixes n p R' F' := by
  refine ⟨?_, fun c hc => (h.run c hc).mono hR hF⟩
  obtain ⟨w, hw⟩ := h.opens
  refine ⟨w, fun z lastEnd hz => ?_⟩
  obtain ⟨m, hm, hz'⟩ := hw z lastEnd (hF _ hz)
  exact ⟨m, hR _ _ hm, hz'⟩

theorem bind_of_ok {f : α → Parse β} {c m : Cursor} {a : α} (h : p c = .ok a m) :
    (p >>= f) c = f a m := by
  show EStateM.bind p f c = _
  unfold EStateM.bind
  rw [h]

theorem bind_of_error {f : α → Parse β} {c d : Cursor} {e : SyntaxError} (h : p c = .error e d) :
    (p >>= f) c = .error e d := by
  show EStateM.bind p f c = _
  unfold EStateM.bind
  rw [h]

theorem bind_eq_error {f : α → Parse β} {c d : Cursor} {e : SyntaxError}
    (h : (p >>= f) c = .error e d) :
    p c = .error e d ∨ ∃ a m, p c = .ok a m ∧ f a m = .error e d := by
  cases hp : p c with
  | error e' d' =>
      rw [bind_of_error hp] at h
      cases h
      exact .inl rfl
  | ok a m =>
      rw [bind_of_ok hp] at h
      exact .inr ⟨a, m, rfl, h⟩

theorem length_le_of_leadsTo {c d : Cursor} (h : c.LeadsTo d) :
    d.tokens.length ≤ c.tokens.length := by
  rw [h.takes.tokens, List.length_append]
  exact Nat.le_add_left _ _

theorem unplaced_append (w w' : List Token) : unplaced (w ++ w') = unplaced w ++ unplaced w' :=
  List.map_append

theorem Opens.follow {z : List Spanned} {w : List Token}
    (h : ∀ (z : List Spanned) (lastEnd : Nat), G (z.map Spanned.token) →
      ∃ m, S ⟨unplaced w ++ z, lastEnd⟩ m ∧ m.tokens = z)
    (hFG : ∀ c m, S c m → G m.kinds → F c.kinds) (hz : G (z.map Spanned.token)) :
    F ((unplaced w ++ z).map Spanned.token) := by
  obtain ⟨m, hm, rfl⟩ := h z 0 hz
  exact hFG _ _ hm hz

/-- What completes a part, and the next part from scratch. -/
theorem Opens.completes {c d : Cursor} {w : List Token} (hS : Opens S G)
    (hFG : ∀ c m, S c m → G m.kinds → F c.kinds) (hR : Completes R F c d w) :
    ∃ w', Completes (Seq R S) G c d w' := by
  obtain ⟨w₂, hw₂⟩ := hS
  refine ⟨w ++ w₂, fun z hz => ?_⟩
  rw [unplaced_append, List.append_assoc]
  obtain ⟨m, hr, hm⟩ := hR _ (Opens.follow hw₂ hFG hz)
  obtain ⟨d, hs, hd⟩ := hw₂ z m.lastEnd hz
  refine ⟨d, ⟨m, hr, ?_⟩, hd⟩
  rwa [← hm] at hs

/-- What completes a part behind another one. -/
theorem Carries.completes {c m d : Cursor} {w : List Token} (hl : Carries R F)
    (hFG : ∀ c m, S c m → G m.kinds → F c.kinds) (hr : R c m) (hto : m.LeadsTo d)
    (hS : Completes S G m d w) : Completes (Seq R S) G c d w := by
  intro z hz
  obtain ⟨d', hs, hd⟩ := hS z hz
  refine ⟨d', ⟨_, hl.through hr hto (hFG _ _ hs ?_), hs⟩, hd⟩
  rw [Cursor.kinds, hd]
  exact hz

/-- **The rule for one parser behind another.**  If the first stops, the second part is made from scratch.
If the second stops, the first part is read as it was, since all that the second can be may follow it. -/
theorem Repairs.bind {f : α → Parse β} {c : Cursor} (hp : Repairs p R F c) (hl : Carries R F)
    (hS : Opens S G) (hf : ∀ a m, p c = .ok a m → Repairs (f a) S G m)
    (hFG : ∀ c m, S c m → G m.kinds → F c.kinds) : Repairs (p >>= f) (Seq R S) G c := by
  refine repairs_of (fun b d hbind => ?_) fun e d hbind => ?_
  · obtain ⟨a, m, ha, hb⟩ := bind_eq_ok.1 hbind
    exact ⟨m, hp.ok ha, (hf a m ha).ok hb⟩
  · rcases bind_eq_error hbind with ha | ⟨a, m, ha, hb⟩
    · obtain ⟨hpoint, hto, w, hw⟩ := hp.error ha
      exact ⟨hpoint, hto, hS.completes hFG hw⟩
    · obtain ⟨hpoint, hto, w, hw⟩ := (hf a m ha).error hb
      exact ⟨hpoint, (hl.leadsTo (hp.ok ha)).trans hto, w, hl.completes hFG (hp.ok ha) hto hw⟩

theorem Opens.seq (hR : Opens R F) (hS : Opens S G) (hFG : ∀ c m, S c m → G m.kinds → F c.kinds) :
    Opens (Seq R S) G := by
  obtain ⟨w₁, hw₁⟩ := hR
  obtain ⟨w₂, hw₂⟩ := hS
  refine ⟨w₁ ++ w₂, fun z lastEnd hz => ?_⟩
  rw [unplaced_append, List.append_assoc]
  obtain ⟨m, hr, hm⟩ := hw₁ _ lastEnd (Opens.follow hw₂ hFG hz)
  obtain ⟨d, hs, hd⟩ := hw₂ z m.lastEnd hz
  refine ⟨d, ⟨m, hr, ?_⟩, hd⟩
  rwa [← hm] at hs

theorem Fixes.bind [Nonempty α] {f : α → Parse β} {n' : Nat} (hl : Carries R F)
    (hp : Fixes n p R F) (hn : ∀ c m, R c m → c.tokens.length ≤ n → m.tokens.length ≤ n')
    (hf : ∀ a, Fixes n' (f a) S G) (hFG : ∀ c m, S c m → G m.kinds → F c.kinds) :
    Fixes n (p >>= f) (Seq R S) G := by
  obtain ⟨a₀⟩ := ‹Nonempty α›
  refine ⟨hp.opens.seq (hf a₀).opens hFG, fun c hc => ?_⟩
  refine (hp.run c hc).bind hl (hf a₀).opens (fun a m ha => ?_) hFG
  exact (hf a).run m (hn c m ((hp.run c hc).ok ha) hc)

theorem Fixes.andThen [Nonempty α] {f : α → Parse β} (hl : Carries R F) (hp : Fixes n p R F)
    (hf : ∀ a, Fixes n (f a) S G) (hFG : ∀ c m, S c m → G m.kinds → F c.kinds) :
    Fixes n (p >>= f) (Seq R S) G :=
  hp.bind hl (fun _ _ hr hc => Nat.le_trans (length_le_of_leadsTo (hl.leadsTo hr)) hc) hf hFG

/-- What is put together behind the last part reads nothing. -/
theorem Repairs.still {f : α → Parse β} {c : Cursor} (h : Repairs p R F c)
    (hf : ∀ a m, ∃ b, f a m = .ok b m) : Repairs (p >>= f) R F c := by
  refine repairs_of (fun b d hbind => ?_) fun e d hbind => ?_
  · obtain ⟨a, m, ha, hb⟩ := bind_eq_ok.1 hbind
    obtain ⟨b', hb'⟩ := hf a m
    rw [hb'] at hb
    cases hb
    exact h.ok ha
  · rcases bind_eq_error hbind with ha | ⟨a, m, ha, hb⟩
    · exact h.error ha
    · obtain ⟨b', hb'⟩ := hf a m
      rw [hb'] at hb
      cases hb

theorem Fixes.still {f : α → Parse β} (h : Fixes n p R F) (hf : ∀ a m, ∃ b, f a m = .ok b m) :
    Fixes n (p >>= f) R F := ⟨h.opens, fun c hc => (h.run c hc).still hf⟩

/-! ### One token -/

/-- The next token is of the kind. -/
def OneToken (P : Token → Prop) (c d : Cursor) : Prop := P c.current ∧ d = c.step

theorem carries_oneToken {P : Token → Prop} (he : ¬P .eof) :
    Carries (OneToken P) fun _ => True where
  leadsTo := by
    rintro c _ ⟨-, rfl⟩
    exact c.leadsTo_step
  splice := by
    rintro c _ new ⟨hc, rfl⟩ -
    have hne : c.current ≠ .eof := fun h => he (h ▸ hc)
    exact ⟨by rwa [Cursor.current_splice hne (.refl _)], (Cursor.step_splice hne (.refl _) new).symm⟩

/-- A parser of one token, which stops before it. -/
theorem fixes_oneToken {P : Token → Prop} {t : Token} (ht : P t)
    (hok : ∀ c a m, p c = .ok a m → P c.current ∧ m = c.step)
    (herr : ∀ c e d, p c = .error e d → d = c ∧ e.PointsAt c) :
    Fixes n p (OneToken P) fun _ => True := by
  have hopens : ∀ (z : List Spanned) (lastEnd : Nat),
      OneToken P ⟨unplaced [t] ++ z, lastEnd⟩ ⟨z, 0⟩ := fun z lastEnd => ⟨ht, rfl⟩
  refine ⟨⟨[t], fun z lastEnd _ => ⟨_, hopens z lastEnd, rfl⟩⟩, fun c _ =>
    repairs_of (fun a m h => hok c a m h) fun e d h => ?_⟩
  obtain ⟨rfl, hp⟩ := herr c e d h
  refine ⟨hp, .refl _, [t], fun z _ => ⟨⟨z, 0⟩, ?_, rfl⟩⟩
  rw [Cursor.splice_self]
  exact hopens z _

/-- An error that is given at the next token. -/
theorem failHere_error {fault : SyntaxFault} {c d : Cursor} {e : SyntaxError}
    (h : (failHere fault : Parse α) c = .error e d) (hf : ∀ t, fault.found? = some t → t = c.current) :
    d = c ∧ e.PointsAt c := by
  cases h
  exact ⟨rfl, fun _ => ⟨rfl, fun _ => hf⟩⟩

theorem expect_error {t : Token} {c d : Cursor} {e : SyntaxError} (h : expect t c = .error e d) :
    d = c ∧ e.PointsAt c := by
  rcases c with ⟨_ | ⟨u, rest⟩, lastEnd⟩
  · cases h
    exact ⟨rfl, fun _ => ⟨rfl, fun _ t ht => by cases ht⟩⟩
  · unfold expect at h
    rw [get_bind] at h
    simp only at h
    split at h
    · cases h
    · split at h
      · cases h
        exact ⟨rfl, fun _ => ⟨rfl, fun _ t ht => by cases ht⟩⟩
      · cases h
        exact ⟨rfl, fun _ => ⟨rfl, fun _ t ht => (Option.some.inj ht).symm⟩⟩

theorem fixes_expect {t : Token} (ht : t ≠ .eof) :
    Fixes n (expect t) (OneToken (· = t)) fun _ => True := by
  refine fixes_oneToken rfl (fun c a m h => ?_) fun c e d => expect_error
  obtain ⟨hc, -, hm⟩ := (expect_eq_ok ht).1 h
  exact ⟨hc, hm⟩

theorem carries_expect {t : Token} (ht : t ≠ .eof) : Carries (OneToken (· = t)) fun _ => True :=
  carries_oneToken fun h => ht h.symm

/-- A given token, and another part behind it. -/
theorem Fixes.behind {t : Token} (ht : t ≠ .eof) {f : Span → Parse β} (hf : ∀ a, Fixes n (f a) S G) :
    Fixes n (expect t >>= f) (Seq (OneToken (· = t)) S) G :=
  (fixes_expect ht).andThen (carries_expect ht) hf fun _ _ _ _ => trivial

/-- The same, where the part behind the token is known to be completed with fewer tokens only. -/
theorem Fixes.behindFirst {t : Token} (ht : t ≠ .eof) {f : Span → Parse β}
    (hf : ∀ a, Fixes n (f a) S G) :
    Fixes (n + 1) (expect t >>= f) (Seq (OneToken (· = t)) S) G := by
  refine (fixes_expect ht).bind (carries_expect ht) (fun c m hr hc => ?_) hf fun _ _ _ _ => trivial
  obtain ⟨hcur, rfl⟩ := hr
  have hlt := Cursor.length_step_lt (c := c) (by rw [hcur]; exact ht)
  omega

theorem fixes_name : Fixes n name (Stretch NameReads) fun _ => True := by
  have h : Fixes n name (OneToken fun t => ∃ s, t = .name s) fun _ => True := by
    refine fixes_oneToken (t := .name "x") ⟨"x", rfl⟩ (fun c a m h => ?_) fun c e d h => ?_
    · obtain ⟨hc, -, hm⟩ := name_eq_ok.1 h
      exact ⟨⟨a.text, hc⟩, hm⟩
    · unfold name at h
      rw [get_bind] at h
      cases hc : c.current with
      | name s =>
          simp only [hc] at h
          cases h
      | _ =>
          simp only [hc] at h
          exact failHere_error h fun t ht => by rw [hc]; exact (Option.some.inj ht).symm
  refine h.mono (fun c m hm => ?_) fun _ h => h
  obtain ⟨⟨s, hs⟩, rfl⟩ := hm
  exact ⟨⟨s, c.span⟩, hs, rfl, rfl⟩

theorem fixes_assign : Fixes n assign (OneToken (Token.isAssign · = true)) fun _ => True := by
  refine fixes_oneToken (t := .mark .assign) rfl (fun c a m h => ?_) fun c e d h => ?_
  · obtain ⟨hc, -, hm⟩ := assign_eq_ok.1 h
    exact ⟨hc, hm⟩
  · unfold assign at h
    rw [get_bind] at h
    split at h
    · cases h
    · exact expect_error h

theorem fixes_dataType : Fixes n dataType (OneToken fun t => ∃ type, t = .type type) fun _ => True := by
  refine fixes_oneToken (t := .type .numero) ⟨_, rfl⟩ (fun c a m h => ?_) fun c e d h => ?_
  · obtain ⟨hc, hm⟩ := dataType_eq_ok.1 h
    exact ⟨⟨a, hc⟩, hm⟩
  · unfold dataType at h
    rw [get_bind] at h
    cases hc : c.current.dataType? with
    | some type =>
        simp only [hc] at h
        cases h
    | none =>
        simp only [hc] at h
        exact failHere_error h fun t ht => (Option.some.inj ht).symm

theorem fixes_loopStep : Fixes n loopStep (OneToken fun t => ∃ s, t = .step s) fun _ => True := by
  refine fixes_oneToken (t := .step .increment) ⟨_, rfl⟩ (fun c a m h => ?_) fun c e d h => ?_
  · obtain ⟨hc, hm⟩ := loopStep_eq_ok.1 h
    exact ⟨⟨a, hc⟩, hm⟩
  · unfold loopStep at h
    rw [get_bind] at h
    cases hc : c.current with
    | step s =>
        simp only [hc] at h
        cases h
    | _ =>
        simp only [hc] at h
        exact failHere_error h fun t ht => by rw [hc]; exact (Option.some.inj ht).symm

/-- A step over a token that was looked at. -/
theorem Repairs.step {c : Cursor} (h : Repairs p R F c.step) (hc : c.current ≠ .eof) :
    Repairs (Parse.step >>= fun _ => p) (fun c' d => c'.current = c.current ∧ R c'.step d) F c := by
  refine repairs_of (fun a m hp => ⟨rfl, h.ok hp⟩) fun e d hp => ?_
  obtain ⟨hpoint, hto, w, hw⟩ := h.error hp
  refine ⟨hpoint, c.leadsTo_step.trans hto, w, fun z hz => ?_⟩
  obtain ⟨m, hm, hz'⟩ := hw z hz
  refine ⟨m, ⟨Cursor.current_splice hc hto _, ?_⟩, hz'⟩
  rwa [Cursor.step_splice hc hto]

/-! ### Expressions and several parts -/

theorem fixes_expression : Fixes n expression (Stretch ExprReads) Ends := by
  refine ⟨⟨[.oo], fun z lastEnd hz => ?_⟩, fun c _ => repairs_of (fun e m h => ?_) fun e d h => ?_⟩
  · exact ⟨⟨z, 0⟩, ⟨.bool true (.point 0), .atom rfl, @Ends.stops ⟨z, 0⟩ hz 0⟩, rfl⟩
  · exact ⟨e, expression_eq_ok.1 h⟩
  · obtain ⟨hp, hto, w, -, hw⟩ := expression_repair h
    exact ⟨hp, hto, w, hw⟩

theorem carries_many {more : Cursor → Bool} {R : Cursor → β → Cursor → Prop}
    (hlocal : Local (fun c a d => more c = true ∧ R c a d) F)
    (hF : ∀ c, more c = true → F c.kinds) :
    Carries (Stretch (Many more R))
      fun ts => F ts ∧ ∀ c : Cursor, c.kinds = ts → more c = false where
  leadsTo := fun ⟨_, h⟩ => h.leadsTo hlocal
  splice := by
    rintro c d new ⟨as, has⟩ ⟨hn, hend⟩
    refine ⟨as, has.splice hlocal hF new hn (hend _ ?_)⟩
    rw [Cursor.splice_self]
    rfl

/-- Several parts can be completed if each of them can, and is still announced. -/
theorem fixes_repeatWhile {more : Cursor → Bool} {R : Cursor → β → Cursor → Prop}
    (hmore : ∀ c, more c = true → c.current ≠ .eof)
    (hlocal : Local (fun c a d => more c = true ∧ R c a d) F)
    (hF : ∀ c, more c = true → F c.kinds)
    (hlt : ∀ c a d, more c = true → R c a d → d.tokens.length < c.tokens.length)
    (hpart : ∀ c, c.tokens.length ≤ n → more c = true →
      Repairs p (fun c d => more c = true ∧ Stretch R c d) F c) :
    Fixes n (repeatWhile more p) (Stretch (Many more R))
      fun ts => F ts ∧ ∀ c : Cursor, c.kinds = ts → more c = false := by
  have hopens : Opens (Stretch (Many more R))
      fun ts => F ts ∧ ∀ c : Cursor, c.kinds = ts → more c = false :=
    ⟨[], fun z lastEnd hz => ⟨⟨z, lastEnd⟩, ⟨[], .nil (hz.2 _ rfl)⟩, rfl⟩⟩
  have hcarries : Carries (fun c d => more c = true ∧ Stretch R c d) F :=
    ⟨fun ⟨hm, a, ha⟩ => hlocal.leadsTo ⟨hm, ha⟩, fun ⟨hm, a, ha⟩ hF =>
      have h := hlocal.splice ⟨hm, ha⟩ hF
      ⟨h.1, a, h.2⟩⟩
  suffices hrun : ∀ (fuel : Nat) (c : Cursor), c.tokens.length ≤ fuel → c.tokens.length ≤ n →
      Repairs (repeatF more p fuel) (Stretch (Many more R))
        (fun ts => F ts ∧ ∀ c : Cursor, c.kinds = ts → more c = false) c from
    ⟨hopens, fun c hn => hrun c.tokens.length c (Nat.le_refl _) hn⟩
  intro fuel
  induction fuel with
  | zero =>
      intro c hfuel _
      refine ⟨[], .nil ?_⟩
      cases hm : more c with
      | false => rfl
      | true =>
          have hlen := Cursor.length_step_lt (hmore c hm)
          omega
  | succ fuel ih =>
      intro c hfuel hn
      cases hm : more c with
      | false =>
          have heq : repeatF more p (fuel + 1) c = .ok [] c := by
            rw [repeatF, get_bind, hm]
            rfl
          unfold Repairs
          rw [heq]
          exact ⟨[], .nil hm⟩
      | true =>
          have heq : repeatF more p (fuel + 1) c =
              (p >>= fun a => repeatF more p fuel >>= fun rest => pure (a :: rest)) c := by
            rw [repeatF, get_bind, hm]
            rfl
          refine Repairs.congr (Repairs.mono
            ((hpart c hn hm).bind hcarries hopens (fun a m ha => ?_) ?_) ?_ fun _ h => h) heq
          · obtain ⟨-, b, hb⟩ := (hpart c hn hm).ok ha
            have hlen := hlt c b m hm hb
            exact (ih m (by omega) (by omega)).still fun as m => ⟨a :: as, rfl⟩
          · rintro m d ⟨as, has⟩ ⟨hFd, -⟩
            rcases has.eq_or_more with rfl | hm'
            · exact hFd
            · exact hF m hm'
          · rintro c d ⟨m, ⟨hm, b, hb⟩, bs, hbs⟩
            exact ⟨b :: bs, .cons hm hb hbs⟩

theorem fixes_commaList [Nonempty α] {R : Cursor → β → Cursor → Prop} (hR : Local R Ends)
    (hlt : ∀ c a d, R c a d → d.tokens.length < c.tokens.length) (hp : Fixes n p (Stretch R) Ends) :
    Fixes n (commaList p) (Stretch (CommaList R))
      fun ts => Ends ts ∧ ts.headD .eof ≠ .mark .comma := by
  have hmany : Fixes n (repeatWhile atComma (Parse.step >>= fun _ => p))
      (Stretch (Many atComma fun c => R c.step))
      fun ts => Ends ts ∧ ∀ c : Cursor, c.kinds = ts → atComma c = false := by
    refine fixes_repeatWhile (fun _ => atComma_ne_eof) (local_behindComma hR) (fun _ => ends_of_atComma)
      (fun c a d _ h => Nat.lt_of_lt_of_le (hlt _ _ _ h) (Climb.length_step_le c)) fun c hn hc => ?_
    refine ((hp.run c.step (Nat.le_trans (Climb.length_step_le c) hn)).step
      (atComma_ne_eof hc)).mono (fun c' d h => ⟨?_, h.2⟩) fun _ h => h
    rw [atComma, h.1]
    exact hc
  have hboth := hp.andThen hR.carries (fun a => hmany.still fun as m => ⟨a :: as, rfl⟩)
    fun c m hm hG => by
      obtain ⟨as, has⟩ := hm
      rcases has.eq_or_more with rfl | hm'
      · exact hG.1
      · exact ends_of_atComma hm'
  refine hboth.mono ?_ fun ts hts => ⟨hts.1, fun c hc => ?_⟩
  · rintro c d ⟨m, ⟨a, ha⟩, as, has⟩
    exact ⟨a :: as, .intro ha has⟩
  · rw [atComma, Cursor.current_eq, hc]
    simpa using hts.2

end

end BisayaLang
