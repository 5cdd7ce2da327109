/-
**Statements do not depend on those behind them.**

No mark ends a statement, and still the statements of two programs are the same when one is put behind
the other: every statement ends before any token that can start a next one.  The first program must not
leave an escape open at its end, since there the tokens of the second are read as text, and it must not
hold the word that ends a program.

Main definitions:

* `BisayaLang.framed` — a program with the given tokens between its first word and its last.

Main results:

* `BisayaLang.Derives.append` — statements are read in the same way with others behind them;
* `BisayaLang.statements_in_sequence` — **the program of two lists of tokens has the statements of the
  one, and then those of the other**;
* `BisayaLang.not_statements_in_sequence` — not so, if the first holds the word that ends a program.
-/

import BisayaLang.Proofs.Grammar.Relocation
import BisayaLang.Proofs.Grammar.Splice

set_option relaxedAutoImplicit false
set_option autoImplicit false

namespace BisayaLang

open Parse

/-- Statements are read in the same way with others behind them, unless they leave an escape open. -/
theorem Derives.append {c m d e : Cursor} {stop : Token} {ss ss' : List Stmt} {new : List Spanned}
    (h : Derives c (.body stop ss) m)
    (hesc : escapeAfter false ((c.upTo m).map Spanned.token) = false)
    (h' : Derives d (.body stop ss') e) (hd : d = ⟨new, m.lastEnd⟩) (he : Boundary e.kinds) :
    Derives (c.splice m new) (.body stop (ss ++ ss')) e := by
  subst hd
  refine h.splice new ⟨h'.boundary_body he, fun ho => ?_⟩ ss' e ?_
  · rw [hesc] at ho
    cases ho
  · rw [Cursor.splice_self]
    exact h'

/-- A program with the given tokens between its first word and its last. -/
def framed (first last stop : Span) (body : List Spanned) : List Spanned :=
  ⟨first, .word .sugod⟩ :: (body ++ [⟨last, .word .katapusan⟩, ⟨stop, .eof⟩])

theorem boundary_katapusan {c : Cursor} (h : c.current = .word .katapusan) : Boundary c.kinds := by
  rw [Cursor.kinds_of_current (by simp [h]), h]
  exact .word (by simp)

/-- Tokens without the word that ends a program are read up to the one behind them. -/
theorem upTo_of_framed {a : List Spanned} {first last stop : Span} {m : Cursor}
    (ha : ∀ t ∈ a, t.token ≠ .word .katapusan)
    (hto : (Cursor.start (framed first last stop a)).step.LeadsTo m)
    (hm : m.current = .word .katapusan) :
    (Cursor.start (framed first last stop a)).step.upTo m = a := by
  obtain ⟨t, rest, ht, hk, -⟩ := Cursor.tokens_of_current (c := m) (by simp [hm])
  have heq : a ++ [⟨last, .word .katapusan⟩, ⟨stop, .eof⟩] =
      (Cursor.start (framed first last stop a)).step.upTo m ++ t :: rest := by
    rw [← ht]
    exact hto.takes.tokens
  rcases List.append_eq_append_iff.1 heq with ⟨between, hrun, hrest⟩ | ⟨between, hrun, hrest⟩
  · -- only the word itself could be read beyond the tokens
    match between with
    | [] => simpa using hrun
    | [_] =>
        obtain ⟨-, rfl, -⟩ : _ ∧ _ ∧ _ := by simpa using hrest
        simp [hm] at hk
    | _ :: _ :: _ => simp at hrest
  · match between with
    | [] => simpa using hrun.symm
    | u :: _ =>
        obtain ⟨rfl, -⟩ := List.cons.inj hrest
        exact absurd (hk.trans hm) (ha t (by rw [hrun]; simp))

theorem body_of_parseTokens {ts : List Spanned} {p : Parsed} (h : parseTokens ts = .ok p) :
    ∃ m, Derives (Cursor.start ts).step (.body (.word .katapusan) p.program.body) m ∧
      m.current = .word .katapusan := by
  obtain ⟨d, hp, -⟩ := parseTokens_eq_ok.1 h
  generalize p.program = prog at hp ⊢
  obtain ⟨-, hss, hm⟩ := hp
  exact ⟨_, hss, hm⟩

/-- **The statements of two programs stand one behind the other** where their tokens do, if the first
leaves no escape open and does not hold the word that ends a program.  Those of the first are the same
with their places; those of the second, whose tokens stand elsewhere, are the same but for these. -/
theorem statements_in_sequence {a b b' : List Spanned} {pa pb : Parsed}
    {first last stop first' last' stop' last'' stop'' : Span}
    (ha : parseTokens (framed first last stop a) = .ok pa)
    (hb : parseTokens (framed first' last' stop' b) = .ok pb)
    (hend : ∀ t ∈ a, t.token ≠ .word .katapusan)
    (hesc : escapeAfter false (a.map Spanned.token) = false)
    (hmoved : b'.map Spanned.token = b.map Spanned.token) :
    ∃ p ss, parseTokens (framed first last'' stop'' (a ++ b')) = .ok p ∧
      p.program.body = pa.program.body ++ ss ∧ bareBody ss = bareBody pb.program.body := by
  obtain ⟨mA, hssA, hmA⟩ := body_of_parseTokens ha
  obtain ⟨mB, hssB, hmB⟩ := body_of_parseTokens hb
  have hrun := upTo_of_framed hend hssA.laid.leadsTo hmA
  -- the second program's statements, behind the first one's
  let tail : List Spanned := b' ++ [⟨last'', .word .katapusan⟩, ⟨stop'', .eof⟩]
  have hkinds : (Cursor.mk tail mA.lastEnd).kinds =
      (Cursor.start (framed first' last' stop' b)).step.kinds := by
    simp [tail, Cursor.kinds, Cursor.start, Cursor.step, framed, hmoved]
  obtain ⟨n, e, hssB', hbare, hek⟩ := hssB.relocate hkinds
  obtain ⟨ss, rfl, hss⟩ := Node.eq_body_of_bare hbare
  have he : e.current = .word .katapusan := by rw [Cursor.current_congr hek, hmB]
  have hboth := hssA.append (hrun.symm ▸ hesc) hssB' rfl (boundary_katapusan he)
  have hstart : (Cursor.start (framed first last stop a)).step.splice mA tail =
      (Cursor.start (framed first last'' stop'' (a ++ b'))).step := by
    rw [Cursor.splice, hrun]
    simp [tail, Cursor.start, Cursor.step, framed]
  rw [hstart] at hboth
  exact ⟨⟨⟨pa.program.body ++ ss, _⟩, _⟩, ss, parseTokens_eq_ok.2 ⟨e.step, .intro rfl hboth he, rfl⟩,
    rfl, hss⟩

/-- Items up to the next word, a conditional, and `DILI` before the next statement. -/
def openEnded : List Spanned :=
  unplaced [.word .ipakita, .mark .colon, .mark .lbracket, .name "x", .mark .rbracket, .name "y",
    .word .kung, .mark .lparen, .oo, .mark .rparen, .word .pundok, .mark .lbrace, .mark .rbrace,
    .name "x", .mark .assign, .dili]

/-- An assignment, and a conditional behind it. -/
def assignmentFirst : List Spanned :=
  unplaced [.name "y", .mark .colonAssign, .dili, .word .kung, .mark .lparen, .dili, .mark .rparen,
    .word .pundok, .mark .lbrace, .mark .rbrace]

theorem statements_in_sequence_open :
    ∃ pa pb, parseTokens (framed ⟨0, 5⟩ ⟨6, 15⟩ (.point 15) openEnded) = .ok pa ∧
      parseTokens (framed ⟨0, 5⟩ ⟨7, 16⟩ (.point 16) assignmentFirst) = .ok pb ∧
      ∃ p ss, parseTokens (framed ⟨0, 5⟩ ⟨8, 17⟩ (.point 17) (openEnded ++ assignmentFirst)) =
          .ok p ∧
        p.program.body = pa.program.body ++ ss ∧ bareBody ss = bareBody pb.program.body :=
  ⟨_, _, rfl, rfl, @statements_in_sequence openEnded assignmentFirst assignmentFirst _ _ ⟨0, 5⟩
    ⟨6, 15⟩ (.point 15) ⟨0, 5⟩ ⟨7, 16⟩ (.point 16) _ _ rfl rfl (by decide) rfl rfl⟩

/-- The word that ends a program does so also where other statements stand behind it. -/
theorem not_statements_in_sequence :
    ∃ pa pb p, parseTokens (framed (.point 0) (.point 0) (.point 0) (unplaced [.word .katapusan])) =
        .ok pa ∧
      parseTokens (framed (.point 0) (.point 0) (.point 0)
        (unplaced [.name "x", .mark .assign, .name "y"])) = .ok pb ∧
      escapeAfter false [.word .katapusan] = false ∧
      parseTokens (framed (.point 0) (.point 0) (.point 0) (unplaced [.word .katapusan] ++
        unplaced [.name "x", .mark .assign, .name "y"])) = .ok p ∧
      bareBody p.program.body ≠ bareBody (pa.program.body ++ pb.program.body) :=
  ⟨_, _, _, rfl, rfl, rfl, rfl, by simp [bareBody]⟩

end BisayaLang
