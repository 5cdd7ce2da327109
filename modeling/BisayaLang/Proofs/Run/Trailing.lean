/-
**Code behind the end of a program.**

What stands behind the word that ends a program is never run.  It has to have tokens, though, since a text
is read to its end before anything is run.  If it has, the program is the same one as without it, and so
is everything the program does; there is one notice more, before all others, with the place from the first
to the last token of what is never run.

The tokens behind the program may be any: the parser looks at none of them before the program is read,
and afterwards only for where the last of them ends.

Main definitions:

* `BisayaLang.Run.about` — the same run, told about another source;
* `BisayaLang.Run.after` — a run with a notice before all others.

Main results:

* `BisayaLang.ProgramReads.before` — a program is read in the same way before any tokens;
* `BisayaLang.parseProgram_with_trailing` — and in the same way above any text that has tokens;
* `BisayaLang.runSource_with_trailing` — **code behind the end of a program is not run**.
-/

import BisayaLang.Proofs.Grammar.Sequence
import BisayaLang.Proofs.Run.Streaming
import BisayaLang.Proofs.Token.Lines

set_option relaxedAutoImplicit false
set_option autoImplicit false

namespace BisayaLang

open Parse

/-! ### The program before other tokens -/

/-- Stepping over tokens ends where the last of them does. -/
theorem lastEnd_skipToEnd {first stop : Spanned} {more : List Spanned}
    (h : ∀ t ∈ first :: more, t.token ≠ .eof) (hstop : stop.token = .eof) (lastEnd : Nat) :
    (Cursor.skipToEnd (first :: more ++ [stop]) lastEnd).lastEnd = (more.getLastD first).span.stop := by
  induction more generalizing first lastEnd with
  | nil => simp [Cursor.skipToEnd, h first (by simp), hstop]
  | cons second more ih =>
      rw [List.cons_append, Cursor.skipToEnd, if_neg (h first (by simp)), List.getLastD_cons]
      exact ih (fun t ht => h t (.tail _ ht)) _

/-- **A program is read in the same way before any tokens.**  The word that ends it is kept, and nothing
looks further than that. -/
theorem ProgramReads.before {c d : Cursor} {p : Program} (h : ProgramReads c p d)
    (after : List Spanned) : ProgramReads (c.splice d after) p ⟨after, d.lastEnd⟩ := by
  cases h with
  | @intro m ss hc hss hm =>
      have hto := hss.laid.leadsTo
      obtain ⟨hc', hs, hspan⟩ :=
        Cursor.splice_of_current hc (by simp) (hto.trans m.leadsTo_step) after
      obtain ⟨hm', hms, hmspan⟩ := Cursor.splice_of_current hm (by simp) (.refl m.step) after
      have hclose : Closes ((c.step.upTo m).map Spanned.token) m.kinds
          ((m.splice m.step after).tokens.map Spanned.token) := by
        refine ⟨boundary_katapusan hm', fun _ _ => ?_⟩
        show ((m.splice m.step after).kinds.headD .eof).endsPrint = true
        rw [← Cursor.current_eq, hm']
        rfl
      have hnil : Derives (m.splice m (m.splice m.step after).tokens) (.body (.word .katapusan) [])
          (m.splice m.step after) := by
        rw [Cursor.splice_self_splice]
        exact .nil (by simp [moreBefore, hm'])
      have hbody := hss.splice (m.splice m.step after).tokens hclose [] _ hnil
      rw [List.append_nil, Cursor.splice_splice hto m.leadsTo_step, ← hs] at hbody
      have hprogram := ProgramReads.intro hc' hbody hm'
      rw [hspan, hmspan, hms, Cursor.splice_self] at hprogram
      exact hprogram

theorem ProgramReads.leadsTo {c d : Cursor} {p : Program} (h : ProgramReads c p d) : c.LeadsTo d := by
  cases h with
  | intro hc hss hm => exact c.leadsTo_step.trans (hss.laid.leadsTo.trans (Cursor.leadsTo_step _))

/-- The last token of a program is the word that ends it. -/
theorem ProgramReads.upTo_eq {c d : Cursor} {p : Program} (h : ProgramReads c p d) :
    ∃ front last, c.upTo d = front ++ [last] ∧ last.token = .word .katapusan := by
  cases h with
  | @intro m ss hc hss hm =>
      obtain ⟨t, ht, hk, -, -⟩ := Cursor.upTo_eq_cons (by simp [hm]) (.refl m.step)
      rw [Cursor.upTo_self] at ht
      refine ⟨c.upTo m, t, ?_, hk.trans hm⟩
      rw [Cursor.upTo_trans (c.leadsTo_step.trans hss.laid.leadsTo) m.leadsTo_step, ht]

/-- Before the end stands nothing but the program, if there is nothing behind it. -/
theorem ProgramReads.upTo_of_end {c d : Cursor} {p : Program} (h : ProgramReads c p d)
    {body : List Spanned} {stop : Spanned} (hc : c.tokens = body ++ [stop])
    (hbody : ∀ t ∈ body, t.token ≠ .eof) (hstop : stop.token = .eof) (hd : d.current = .eof) :
    c.upTo d = body := by
  obtain ⟨front, last, hfront, hlast⟩ := h.upTo_eq
  have htokens : body ++ [stop] = c.upTo d ++ d.tokens := hc ▸ h.leadsTo.takes.tokens
  rcases List.eq_nil_or_concat d.tokens with hnil | ⟨rest, stop', hrest⟩
  · -- the end is no token of the program
    rw [hnil, List.append_nil, hfront] at htokens
    obtain rfl : stop = last := List.singleton_inj.1 (List.append_inj' htokens rfl).2
    rw [hstop] at hlast
    cases hlast
  · rw [List.concat_eq_append] at hrest
    rw [hrest, ← List.append_assoc] at htokens
    have hsplit : body = c.upTo d ++ rest := (List.append_inj' htokens rfl).1
    cases rest with
    | nil => rw [hsplit, List.append_nil]
    | cons e rest =>
        have he : e.token = .eof := by
          rw [Cursor.current, hrest] at hd
          exact hd
        exact absurd he (hbody e (by simp [hsplit]))

/-- The same program stands before other tokens, and their span is kept. -/
theorem parseTokens_with_trailing {body : List Spanned} {stop first stop' : Spanned}
    {more : List Spanned} {p : Program} (h : parseTokens (body ++ [stop]) = .ok ⟨p, none⟩)
    (hbody : ∀ t ∈ body, t.token ≠ .eof) (hstop : stop.token = .eof)
    (hmore : ∀ t ∈ first :: more, t.token ≠ .eof) (hstop' : stop'.token = .eof) :
    parseTokens (body ++ (first :: more ++ [stop'])) =
      .ok ⟨p, some ⟨first.span.start, (more.getLastD first).span.stop⟩⟩ := by
  obtain ⟨d, hp, hnone⟩ := parseTokens_eq_ok.1 h
  have hd : d.current = .eof := by
    unfold Cursor.trailing at hnone
    split at hnone
    · assumption
    · cases hnone
  have hbefore := hp.before (first :: more ++ [stop'])
  rw [Cursor.splice, hp.upTo_of_end rfl hbody hstop hd] at hbefore
  refine parseTokens_eq_ok.2 ⟨_, hbefore, ?_⟩
  have hcurrent : (Cursor.mk (first :: more ++ [stop']) d.lastEnd).current ≠ .eof :=
    hmore first (.head _)
  unfold Cursor.trailing
  rw [if_neg hcurrent, lastEnd_skipToEnd hmore hstop']
  rfl

/-! ### The source with another text below it -/

theorem getLastD_shift (k : Nat) (first : Spanned) (more : List Spanned) :
    (more.map (Spanned.shift k)).getLastD (first.shift k) = (more.getLastD first).shift k := by
  induction more generalizing first with
  | nil => rfl
  | cons second more ih =>
      rw [List.map_cons, List.getLastD_cons, List.getLastD_cons]
      exact ih second

/-- The same program stands above another text, and the span of the tokens there is kept. -/
theorem parseProgram_with_trailing {source behind : String} {p : Program} {first stop : Spanned}
    {more : List Spanned} (h : parseProgram source = .ok ⟨p, none⟩)
    (hbehind : tokenize behind = .ok (first :: more ++ [stop])) :
    parseProgram (source ++ "\n" ++ behind) =
      .ok ⟨p, some (Span.shift (source.utf8ByteSize + 1)
        ⟨first.span.start, (more.getLastD first).span.stop⟩)⟩ := by
  obtain ⟨tokens, htokens, hparse⟩ := parseProgram_eq_ok.1 h
  obtain ⟨body, rfl, hbody⟩ := tokenize_ends htokens
  obtain ⟨body', heq, hbody'⟩ := tokenize_ends hbehind
  obtain ⟨rfl, hsame⟩ := List.append_inj' heq rfl
  obtain rfl := List.singleton_inj.1 hsame
  have hbelow := tokenize_below htokens behind
  rw [hbehind] at hbelow
  generalize source.utf8ByteSize + 1 = k at hbelow ⊢
  have hmore : ∀ t ∈ first.shift k :: more.map (Spanned.shift k), t.token ≠ .eof := by
    rw [← List.map_cons]
    intro t ht
    obtain ⟨u, hu, rfl⟩ := List.mem_map.1 ht
    exact hbody' u hu
  rw [parseProgram_of_tokens hbelow, List.map_append, List.map_cons, List.map_singleton,
    parseTokens_with_trailing hparse hbody rfl hmore rfl, getLastD_shift]
  rfl

/-! ### The run -/

/-- How a run ended, told about another source. -/
def Outcome.about (source : String) : Outcome → Outcome
  | .stopped (.rejected path _ e) => .stopped (.rejected path source e)
  | .stopped (.failed path _ e) => .stopped (.failed path source e)
  | outcome => outcome

section

variable {σ : Type}

/-- The same run, told about another source. -/
def Run.about (source : String) (r : Run σ) : Run σ :=
  ⟨r.outcome.about source, r.notices.map fun n => ⟨n.path, source, n.warning⟩, r.sink, r.input⟩

/-- The run with a notice before all others. -/
def Run.after (n : Notice) (r : Run σ) : Run σ := { r with notices := n :: r.notices }

variable [Sink σ]

/-- Tokens behind a program are told first, and make no other difference. -/
theorem runParsed_with_trailing (fuel : Nat) (path source whole : String) (p : Program) (span : Span)
    (input : List UInt8) (sink : σ) :
    runParsed fuel path whole ⟨p, some span⟩ input sink =
      ((runParsed fuel path source ⟨p, none⟩ input sink).about whole).after
        ⟨path, whole, .unreachableCode span⟩ := by
  unfold runParsed
  simp only [EStateM.run]
  cases p.exec fuel (.start input sink) with
  | ok _ m => simp [Run.about, Run.after, Outcome.about, Parsed.warnings, noticesOf]
  | error h m =>
      cases h <;> simp [Run.about, Run.after, Outcome.about, Parsed.warnings, noticesOf]

/-- **Code behind the end of a program is not run.**  If it has tokens, the run is the one of the source
without it, with one notice before all others about the place from the first to the last of these tokens.
If it has a fault, nothing is run, and the fault is what is told, at its place in the whole. -/
theorem runSource_with_trailing {source : String} {p : Program}
    (h : parseProgram source = .ok ⟨p, none⟩) (fuel : Nat) (path behind : String)
    (input : List UInt8) (sink : σ) :
    let whole := source ++ "\n" ++ behind
    let offset := source.utf8ByteSize + 1
    (∀ first more stop, tokenize behind = .ok (first :: more ++ [stop]) →
      runSource fuel path whole input sink =
        ((runSource fuel path source input sink).about whole).after
          ⟨path, whole, .unreachableCode
            (Span.shift offset ⟨first.span.start, (more.getLastD first).span.stop⟩)⟩) ∧
    ∀ e, tokenize behind = .error e →
      runSource fuel path whole input sink =
        .unstarted (.rejected path whole (.ofLexError (e.shift offset))) input sink := by
  intro whole offset
  constructor
  · intro first more stop hbehind
    unfold runSource
    rw [h, parseProgram_with_trailing h hbehind]
    exact runParsed_with_trailing ..
  · intro e hbehind
    obtain ⟨tokens, htokens, -⟩ := parseProgram_eq_ok.1 h
    obtain ⟨body, rfl, -⟩ := tokenize_ends htokens
    have hbelow := tokenize_below htokens behind
    rw [hbehind] at hbelow
    unfold runSource
    rw [parseProgram_of_lexError hbelow]

end

theorem exists_without_trailing (text : String)
    (h : (parseProgram text).toOption.map Parsed.trailing = some none) :
    ∃ p, parseProgram text = .ok ⟨p, none⟩ := by
  cases hp : parseProgram text with
  | error e =>
      rw [hp] at h
      cases h
  | ok parsed =>
      rw [hp] at h
      obtain ⟨p, trailing⟩ := parsed
      obtain rfl : trailing = none := Option.some.inj h
      exact ⟨p, rfl⟩

/-- A program that fails, with a comment behind it that the line end closes.  Below it stand tokens that
no program has, or a quote that is not closed. -/
theorem runSource_with_trailing_brackets :
    (∃ p, parseProgram "SUGOD IPAKITA: x KATAPUSAN -- x" = .ok ⟨p, none⟩) ∧
    runSource 0 "path" "SUGOD IPAKITA: x KATAPUSAN -- x\n] x = SUGOD" [] Buffer.unlimited =
      ((runSource 0 "path" "SUGOD IPAKITA: x KATAPUSAN -- x" [] Buffer.unlimited).about
          "SUGOD IPAKITA: x KATAPUSAN -- x\n] x = SUGOD").after
        ⟨"path", "SUGOD IPAKITA: x KATAPUSAN -- x\n] x = SUGOD", .unreachableCode ⟨32, 43⟩⟩ ∧
    runSource 0 "path" "SUGOD IPAKITA: x KATAPUSAN -- x\nx '" [] Buffer.unlimited =
      .unstarted (.rejected "path" "SUGOD IPAKITA: x KATAPUSAN -- x\nx '"
        ⟨.lexical (.unterminatedCharacter none), ⟨34, 35⟩⟩) [] Buffer.unlimited := by
  obtain ⟨p, hp⟩ := exists_without_trailing "SUGOD IPAKITA: x KATAPUSAN -- x" (by decide +kernel)
  have htokens : tokenize "] x = SUGOD" = .ok (⟨⟨0, 1⟩, .mark .rbracket⟩ :: [⟨⟨2, 3⟩, .name "x"⟩,
      ⟨⟨4, 5⟩, .mark .assign⟩, ⟨⟨6, 11⟩, .word .sugod⟩] ++ [⟨.point 11, .eof⟩]) := by
    with_unfolding_all rfl
  have hfault : tokenize "x '" = .error ⟨.unterminatedCharacter none, ⟨2, 3⟩⟩ := by
    with_unfolding_all rfl
  refine ⟨⟨p, hp⟩, ?_, ?_⟩
  · exact (runSource_with_trailing hp 0 "path" "] x = SUGOD" [] Buffer.unlimited).1 _ _ _ htokens
  · exact (runSource_with_trailing hp 0 "path" "x '" [] Buffer.unlimited).2 _ hfault

end BisayaLang
