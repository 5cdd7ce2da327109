/-
**Reading a canonical text again.**

A program that was read from a text is written as its canonical text, and that text is read again.  If
the program is legible, the text has exactly the tokens of the program, and from these the program is
read, whatever tokens it was read from first.

If it is not legible, the text is never read as the same program, and nothing has to be known about what
it is read as.  Suppose that it were.  Then the tokens of the program are written back for those of the
text, so the text has as many minus signs as its tokens: no comment was skipped, and every double quote
belongs to a token.  But a doubled minus is a comment, and a double quote in double quotes is one quote
more than any token is written with.

Main results:

* `BisayaLang.parseProgram_renders` — the tokens of a program are written back for those of its text;
* `BisayaLang.canonical_text_reparses_iff` — **the canonical text of a program is read as the same
  program exactly if the program is legible**.
-/

import BisayaLang.Proofs.Canonical.Provenance
import BisayaLang.Proofs.Canonical.Writing

set_option relaxedAutoImplicit false
set_option autoImplicit false

namespace BisayaLang

/-! ### Programs and their texts -/

theorem current_of_trailing {c : Cursor} (h : c.trailing = none) : c.current = .eof := by
  unfold Cursor.trailing at h
  split at h
  · assumption
  · cases h

/-- **The tokens of a program are written back for those of its text**, and behind them stands nothing
but the end if nothing is trailing. -/
theorem parseProgram_renders {text : String} {p : Parsed} (h : parseProgram text = .ok p) :
    ∃ ts us, Lexes false text.toList (ts ++ us) ∧ Renders ts p.program.tokens ∧
      (p.trailing = none → quotes us = 0) := by
  obtain ⟨tokens, hscan, hparse⟩ := parseProgram_eq_ok.1 h
  obtain ⟨d, hp, htrailing⟩ := parseTokens_eq_ok.1 hparse
  obtain ⟨ts, hk, hr⟩ := hp.covers
  have hlex : Lexes false text.toList (ts ++ d.kinds) :=
    scan_eq_ok_iff.1 ⟨tokens, hscan, hk⟩
  refine ⟨ts, d.kinds, hlex, hr, fun hnone => ?_⟩
  have hd : d.kinds.headD .eof = .eof := by
    rw [← Cursor.current_eq]
    exact current_of_trailing (htrailing ▸ hnone)
  cases hus : d.kinds with
  | nil => rfl
  | cons t us =>
      -- the program is followed by the end, and the end by nothing
      rw [hus] at hd hlex
      change t = .eof at hd
      subst hd
      rw [hlex.eq_nil_of_eof]
      rfl

/-- All tokens of a program that was read can be spelled. -/
theorem spellable_of_parseProgram {text : String} {p : Parsed} (h : parseProgram text = .ok p) :
    ∀ t ∈ p.program.tokens, t.Spellable := by
  obtain ⟨ts, us, hlex, hr, -⟩ := parseProgram_renders h
  exact hr.spellable fun t ht => hlex.spellable t (List.mem_append_left _ ht)

/-! ### Reading it again -/

/-- If the text has the tokens of the program, it is read as the program. -/
theorem parseProgram_of_lexes {text text₂ : String} {p : Parsed} (h : parseProgram text = .ok p)
    (hlex : Lexes false text₂.toList (p.program.tokens ++ [.eof])) :
    ∃ p₂, parseProgram text₂ = .ok p₂ ∧ p₂.program.bare = p.program.bare ∧ p₂.trailing = none := by
  obtain ⟨_, -, hparse⟩ := parseProgram_eq_ok.1 h
  obtain ⟨d, hp, -⟩ := parseTokens_eq_ok.1 hparse
  obtain ⟨tokens, hscan, hk⟩ := scan_eq_ok_iff.2 hlex
  obtain ⟨p₂, hp₂, hb, ht⟩ := parseTokens_tokens hp hk
  exact ⟨p₂, parseProgram_eq_ok.2 ⟨tokens, hscan, hp₂⟩, hb, ht⟩

/-- If the text of loose pieces is read as a program with the tokens of the pieces, no piece is lost. -/
theorem legible_of_parseProgram {ps : List Piece} (hps : Loose ps) {text : String} {p : Parsed}
    (h : parseProgram text = .ok p) (htrailing : p.trailing = none) (htext : textOf ps = text.toList)
    (htokens : tokensOf ps = p.program.tokens) :
    Piece.quoted "\"" ∉ ps ∧ doubled ps = false := by
  obtain ⟨ts, us, hlex, hr, hus⟩ := parseProgram_renders h
  rw [← htext] at hlex
  rw [← htokens] at hr
  -- the minus signs of the pieces are all found in the tokens that were read
  have hcount : dashes (ts ++ us) = (textOf ps).count '-' := by
    have h₁ := hlex.dashes_le
    have h₂ := count_nextText false (textOf ps)
    have h₃ := dashes_tokensOf hps
    have h₄ := hr.dashes_le
    rw [dashes_append] at h₁ ⊢
    omega
  have hquote : Piece.quoted "\"" ∉ ps := by
    intro hmem
    have h₁ := quotes_lt_of_mem hps hmem
    have h₂ := hlex.quotes_le hcount
    have h₃ := hr.quotes_le
    have h₄ := hus htrailing
    rw [quotes_append] at h₂
    omega
  refine ⟨hquote, ?_⟩
  cases hd : doubled ps with
  | false => rfl
  | true =>
      have hlt := dashes_lt_of_doubled hps hquote hd (fun hg => absurd hg (by simp)) hlex
      omega

/-- The canonical text of a program that was read is read as the same program but for the places, with
nothing behind it, exactly if in the program no sign stands right before a sign, and no expression is the
text of one double quote. -/
theorem canonical_text_reparses_iff {text : String} {p : Parsed} (h : parseProgram text = .ok p) :
    (∃ p₂, parseProgram p.program.canonical = .ok p₂ ∧ p₂.program.bare = p.program.bare ∧
      p₂.trailing = none) ↔ p.program.legible = true := by
  obtain ⟨ps, htext, htokens, hps, hlegible⟩ := p.program.written (spellable_of_parseProgram h)
  rw [hlegible]
  constructor
  · rintro ⟨p₂, hp₂, hbare, htrailing⟩
    have heq : p₂.program.tokens = p.program.tokens := by
      rw [← p₂.program.tokens_bare, hbare, p.program.tokens_bare]
    exact legible_of_parseProgram hps hp₂ htrailing htext (htokens.trans heq.symm)
  · rintro ⟨hquote, hdoubled⟩
    have hlex := lexes_pieces hps hquote hdoubled false
    rw [htext, htokens] at hlex
    exact parseProgram_of_lexes h hlex

theorem exists_parsed {text : String} {legible : Bool}
    (h : (parseProgram text).toOption.map (fun p => p.program.legible) = some legible) :
    ∃ p, parseProgram text = .ok p ∧ p.program.legible = legible := by
  cases hp : parseProgram text with
  | error e =>
      rw [hp] at h
      cases h
  | ok p =>
      rw [hp] at h
      exact ⟨p, rfl, Option.some.inj h⟩

/-- A sign before a bracket is read again.  A sign before a sign is not, and a double quote is not. -/
theorem canonical_text_reparses_iff_signs :
    (∃ p, parseProgram "SUGOD x = -(-1) KATAPUSAN" = .ok p ∧
      ∃ p₂, parseProgram p.program.canonical = .ok p₂ ∧ p₂.program.bare = p.program.bare ∧
        p₂.trailing = none) ∧
    (∃ p, parseProgram "SUGOD x = - -1 KATAPUSAN" = .ok p ∧
      ¬ ∃ p₂, parseProgram p.program.canonical = .ok p₂ ∧ p₂.program.bare = p.program.bare ∧
        p₂.trailing = none) ∧
    (∃ p, parseProgram "SUGOD x = '\"' KATAPUSAN" = .ok p ∧
      ¬ ∃ p₂, parseProgram p.program.canonical = .ok p₂ ∧ p₂.program.bare = p.program.bare ∧
        p₂.trailing = none) := by
  obtain ⟨p, hp, hl⟩ : ∃ p, parseProgram "SUGOD x = -(-1) KATAPUSAN" = .ok p ∧
      p.program.legible = true := exists_parsed (by decide +kernel)
  obtain ⟨q, hq, hl'⟩ : ∃ p, parseProgram "SUGOD x = - -1 KATAPUSAN" = .ok p ∧
      p.program.legible = false := exists_parsed (by decide +kernel)
  obtain ⟨r, hr, hl''⟩ : ∃ p, parseProgram "SUGOD x = '\"' KATAPUSAN" = .ok p ∧
      p.program.legible = false := exists_parsed (by decide +kernel)
  refine ⟨⟨p, hp, (canonical_text_reparses_iff hp).2 hl⟩, ⟨q, hq, ?_⟩, ⟨r, hr, ?_⟩⟩
  · rw [canonical_text_reparses_iff hq, hl']
    exact Bool.false_ne_true
  · rw [canonical_text_reparses_iff hr, hl'']
    exact Bool.false_ne_true

end BisayaLang
