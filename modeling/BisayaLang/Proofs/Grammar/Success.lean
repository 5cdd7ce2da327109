/-
**When a parser succeeds.**

A parser is a sequence of smaller ones.  For the ways of putting parsers together, and for the parsers
of single tokens, it is said here when they succeed, with what result, and at which cursor.

Main results:

* `BisayaLang.Parse.bind_eq_ok`, `BisayaLang.Parse.pure_eq_ok`, `BisayaLang.Parse.ite_eq_ok` — success
  of a sequence and of a choice;
* `BisayaLang.Parse.expect_eq_ok`, `BisayaLang.Parse.name_eq_ok`, `BisayaLang.Parse.assign_eq_ok` —
  success on one token;
* `BisayaLang.Parse.repeatWhile_eq_ok`, `BisayaLang.Parse.commaList_eq_ok` — success of a repetition.
-/

import BisayaLang.Proofs.Grammar.Sentence

set_option relaxedAutoImplicit false
set_option autoImplicit false

namespace BisayaLang

namespace Parse

variable {α β : Type}

/-! ### Sequences of parsers -/

theorem bind_eq_ok {p : Parse α} {f : α → Parse β} {c d : Cursor} {b : β} :
    (p >>= f) c = .ok b d ↔ ∃ a m, p c = .ok a m ∧ f a m = .ok b d := by
  show EStateM.bind p f c = .ok b d ↔ _
  unfold EStateM.bind
  cases p c with
  | ok a m =>
      constructor
      · intro h
        exact ⟨a, m, rfl, h⟩
      · rintro ⟨a', m', h, h'⟩
        cases h
        exact h'
  | error err m => simp

theorem pure_eq_ok {c d : Cursor} {a b : α} :
    (pure a : Parse α) c = .ok b d ↔ a = b ∧ c = d := by
  show EStateM.Result.ok a c = .ok b d ↔ _
  simp

theorem map_eq_ok {p : Parse α} {f : α → β} {c d : Cursor} {b : β} :
    (f <$> p) c = .ok b d ↔ ∃ a, p c = .ok a d ∧ f a = b := by
  show EStateM.map f p c = .ok b d ↔ _
  unfold EStateM.map
  cases p c with
  | ok a m =>
      constructor
      · intro h
        cases h
        exact ⟨a, rfl, rfl⟩
      · rintro ⟨a', h, rfl⟩
        cases h
        rfl
  | error err m => simp

theorem get_bind {f : Cursor → Parse β} (c : Cursor) : (get >>= f) c = f c c := rfl

theorem step_bind {f : Unit → Parse β} (c : Cursor) : (step >>= f) c = f () c.step := rfl

theorem lastEnd_bind {f : Nat → Parse β} (c : Cursor) : (lastEnd >>= f) c = f c.lastEnd c := rfl

theorem failHere_ne_ok {fault : SyntaxFault} {c d : Cursor} {a : α} :
    (failHere fault : Parse α) c ≠ .ok a d := by
  intro h
  cases h

theorem fail_ne_ok {fault : SyntaxFault} {span : Span} {c d : Cursor} {a : α} :
    (fail fault span : Parse α) c ≠ .ok a d := by
  intro h
  cases h

theorem ite_eq_ok {p q : Parse α} {b : Prop} [Decidable b] {c d : Cursor} {a : α} :
    (if b then p else q) c = .ok a d ↔ (b ∧ p c = .ok a d) ∨ (¬b ∧ q c = .ok a d) := by
  split <;> simp_all

/-! ### One token -/

theorem expect_eq_ok {t : Token} (ht : t ≠ .eof) {c d : Cursor} {span : Span} :
    expect t c = .ok span d ↔ c.current = t ∧ span = c.span ∧ d = c.step := by
  unfold expect
  rw [get_bind]
  rcases c with ⟨_ | ⟨u, rest⟩, lastEnd⟩
  · simp only [failHere_ne_ok, false_iff]
    rintro ⟨h, -, -⟩
    exact ht h.symm
  · simp only [ite_eq_ok, step_bind, pure_eq_ok, fail_ne_ok, and_false, or_false]
    constructor
    · rintro ⟨h, rfl, rfl⟩
      exact ⟨h, rfl, rfl⟩
    · rintro ⟨h, rfl, rfl⟩
      exact ⟨h, rfl, rfl⟩

theorem name_eq_ok {c d : Cursor} {n : Name} : name c = .ok n d ↔ NameReads c n d := by
  unfold name NameReads
  rw [get_bind]
  cases hc : c.current with
  | name text =>
      simp only [step_bind, pure_eq_ok, Token.name.injEq]
      constructor
      · rintro ⟨rfl, rfl⟩
        exact ⟨rfl, rfl, rfl⟩
      · rintro ⟨rfl, hs, rfl⟩
        obtain ⟨text, span⟩ := n
        simp only at hs
        exact ⟨by rw [hs], rfl⟩
  | _ => simp [failHere_ne_ok]

theorem assign_eq_ok {c d : Cursor} {span : Span} :
    assign c = .ok span d ↔ c.current.isAssign = true ∧ span = c.span ∧ d = c.step := by
  unfold assign
  rw [get_bind, ite_eq_ok]
  simp only [step_bind, pure_eq_ok, expect_eq_ok (show Token.mark .assign ≠ .eof by simp)]
  constructor
  · rintro (⟨h, rfl, rfl⟩ | ⟨h, hc, -, -⟩)
    · exact ⟨h, rfl, rfl⟩
    · rw [hc] at h
      exact absurd rfl h
  · rintro ⟨h, rfl, rfl⟩
    exact .inl ⟨h, rfl, rfl⟩

theorem dataType_eq_ok {c d : Cursor} {type : DataType} :
    dataType c = .ok type d ↔ c.current = .type type ∧ d = c.step := by
  unfold dataType
  rw [get_bind]
  cases hc : c.current with
  | type t =>
      simp only [Token.dataType?, step_bind, pure_eq_ok, Token.type.injEq]
      constructor
      · rintro ⟨rfl, rfl⟩
        exact ⟨rfl, rfl⟩
      · rintro ⟨rfl, rfl⟩
        exact ⟨rfl, rfl⟩
  | _ => simp [Token.dataType?, failHere_ne_ok]

theorem loopStep_eq_ok {c d : Cursor} {s : Step} :
    loopStep c = .ok s d ↔ c.current = .step s ∧ d = c.step := by
  unfold loopStep
  rw [get_bind]
  cases hc : c.current with
  | step t =>
      simp only [step_bind, pure_eq_ok, Token.step.injEq]
      constructor
      · rintro ⟨rfl, rfl⟩
        exact ⟨rfl, rfl⟩
      · rintro ⟨rfl, rfl⟩
        exact ⟨rfl, rfl⟩
  | _ => simp [failHere_ne_ok]

theorem expression_eq_ok {c d : Cursor} {e : Expr} : expression c = .ok e d ↔ ExprReads c e d :=
  expression_eq_ok_iff

/-! ### Repetition -/

/-- Every part takes a token, so that as many parts as there are tokens are enough.  The parser of a
part only needs to be right where at most `n` tokens are left. -/
theorem repeatF_eq_ok {more : Cursor → Bool} {part : Parse α} {R : Cursor → α → Cursor → Prop}
    {n : Nat} (hmore : ∀ c, more c = true → c.current ≠ .eof)
    (hpart : ∀ c, c.tokens.length ≤ n → more c = true → ∀ a d, part c = .ok a d ↔ R c a d)
    (hlt : ∀ c a d, more c = true → R c a d → d.tokens.length < c.tokens.length) (fuel : Nat)
    (c : Cursor) (hf : c.tokens.length ≤ fuel) (hn : c.tokens.length ≤ n) (as : List α)
    (d : Cursor) : repeatF more part fuel c = .ok as d ↔ Many more R c as d := by
  induction fuel generalizing c as d with
  | zero =>
      -- without fuel no token is left, and so no part
      have hc : more c = false := by
        cases hm : more c with
        | false => rfl
        | true =>
            have hlen := Cursor.length_step_lt (hmore c hm)
            omega
      rw [repeatF, pure_eq_ok]
      constructor
      · rintro ⟨rfl, rfl⟩
        exact .nil hc
      · intro h
        cases h with
        | nil _ => exact ⟨rfl, rfl⟩
        | cons hm _ _ => rw [hc] at hm; exact absurd hm (by simp)
  | succ fuel ih =>
      rw [repeatF, get_bind, ite_eq_ok]
      constructor
      · rintro (⟨hm, h⟩ | ⟨hm, h⟩)
        · obtain ⟨a, m, ha, h⟩ := bind_eq_ok.1 h
          obtain ⟨rest, d', hrest, h⟩ := bind_eq_ok.1 h
          obtain ⟨rfl, rfl⟩ := pure_eq_ok.1 h
          have hr := (hpart c hn hm a m).1 ha
          have hlen := hlt c a m hm hr
          exact .cons hm hr ((ih m (by omega) (by omega) rest d').1 hrest)
        · obtain ⟨rfl, rfl⟩ := pure_eq_ok.1 h
          exact .nil (by simpa using hm)
      · intro h
        cases h with
        | nil hm => exact .inr ⟨by simp [hm], pure_eq_ok.2 ⟨rfl, rfl⟩⟩
        | @cons _ m _ a rest hm hr hrest =>
            have hlen := hlt c a m hm hr
            refine .inl ⟨hm, bind_eq_ok.2 ⟨a, m, (hpart c hn hm a m).2 hr, ?_⟩⟩
            exact bind_eq_ok.2 ⟨rest, d, (ih m (by omega) (by omega) rest d).2 hrest,
              pure_eq_ok.2 ⟨rfl, rfl⟩⟩

theorem repeatWhile_eq_ok {more : Cursor → Bool} {part : Parse α} {R : Cursor → α → Cursor → Prop}
    (hmore : ∀ c, more c = true → c.current ≠ .eof) {c : Cursor}
    (hpart : ∀ c', c'.tokens.length ≤ c.tokens.length → more c' = true →
      ∀ a d, part c' = .ok a d ↔ R c' a d)
    (hlt : ∀ c a d, more c = true → R c a d → d.tokens.length < c.tokens.length) {as : List α}
    {d : Cursor} : repeatWhile more part c = .ok as d ↔ Many more R c as d :=
  repeatF_eq_ok hmore hpart hlt c.tokens.length c (Nat.le_refl _) (Nat.le_refl _) as d

theorem atComma_ne_eof {c : Cursor} (h : atComma c = true) : c.current ≠ .eof := by
  intro he
  simp [atComma, he] at h

theorem commaList_eq_ok {part : Parse α} {R : Cursor → α → Cursor → Prop}
    (hpart : ∀ c a d, part c = .ok a d ↔ R c a d)
    (hlt : ∀ c a d, R c a d → d.tokens.length < c.tokens.length) {c d : Cursor} {as : List α} :
    commaList part c = .ok as d ↔ CommaList R c as d := by
  have hrepeat : ∀ (m d : Cursor) (as : List α),
      repeatWhile (fun c => c.current == .mark .comma) (do step; part) m = .ok as d ↔
        Many atComma (fun c => R c.step) m as d := by
    intro m d as
    refine repeatWhile_eq_ok (fun c => atComma_ne_eof) (fun c _ _ a d => ?_) fun c a d hc h => ?_
    · rw [step_bind]
      exact hpart c.step a d
    · have hstep := Cursor.length_step_lt (atComma_ne_eof hc)
      have hlen := hlt c.step a d h
      omega
  unfold commaList
  constructor
  · intro h
    obtain ⟨a, m, ha, h⟩ := bind_eq_ok.1 h
    obtain ⟨rest, d', hrest, h⟩ := bind_eq_ok.1 h
    obtain ⟨rfl, rfl⟩ := pure_eq_ok.1 h
    exact .intro ((hpart c a m).1 ha) ((hrepeat m d' rest).1 hrest)
  · rintro ⟨ha, hrest⟩
    exact bind_eq_ok.2 ⟨_, _, (hpart _ _ _).2 ha, bind_eq_ok.2
      ⟨_, _, (hrepeat _ _ _).2 hrest, pure_eq_ok.2 ⟨rfl, rfl⟩⟩⟩

end Parse

end BisayaLang
