/-
**Syntax errors come before anything wrong is read.**

Where the parser stops with an error, the tokens that it has read are the start of some program.  The
error points at the next token and names no other, but for errors about brackets.  There is a next token,
since no parser steps over the end of the text; and it is no number without a value, since the numbers of
a text are digits.

Main definitions:

* `BisayaLang.Walks` — the second cursor is reached without a step over the end.

Main results:

* `BisayaLang.fixes_program` — a program can be completed;
* `BisayaLang.ProgramReads.walks` — a program holds no end;
* `BisayaLang.Token.Spellable.readable` — the numbers of a text have values;
* `BisayaLang.errors_behind_viable_prefix` — **the tokens before a syntax error start some program**.
-/

import BisayaLang.Proofs.Grammar.Viability
import BisayaLang.Proofs.Token.Recognition
import BisayaLang.Proofs.Token.Spelling
import BisayaLang.Proofs.Token.Tiling

set_option relaxedAutoImplicit false
set_option autoImplicit false

namespace BisayaLang

open Climb Parse Text

/-! ### Programs -/

section

variable {n : Nat}

theorem fixes_statement : Fixes n statement StmtReads Boundary :=
  ⟨(fixes_statementF n).opens, fun c _ => (fixes_statementF c.tokens.length).run c (Nat.le_refl _)⟩

theorem fixes_sugod : Fixes n sugod (OneToken (· = .word .sugod)) fun _ => True := by
  refine fixes_oneToken rfl (fun c a m h => ?_) fun c e d h => ?_
  · unfold sugod at h
    rw [get_bind] at h
    rcases ite_eq_ok.1 h with ⟨-, h⟩ | ⟨-, h⟩
    · obtain ⟨hc, -, hm⟩ := (expect_eq_ok (by simp)).1 h
      exact ⟨hc, hm⟩
    · exact absurd h failHere_ne_ok
  · unfold sugod at h
    rw [get_bind] at h
    split at h
    · exact expect_error h
    · exact failHere_error h fun t ht => by cases ht

theorem fixes_katapusan : Fixes n katapusan (OneToken (· = .word .katapusan)) fun _ => True := by
  refine fixes_oneToken rfl (fun c a m h => ?_) fun c e d h => ?_
  · unfold katapusan at h
    rw [get_bind] at h
    rcases ite_eq_ok.1 h with ⟨-, h⟩ | ⟨-, h⟩
    · exact absurd h failHere_ne_ok
    · obtain ⟨hc, -, hm⟩ := (expect_eq_ok (by simp)).1 h
      exact ⟨hc, hm⟩
  · unfold katapusan at h
    rw [get_bind] at h
    split at h
    · exact failHere_error h fun t ht => by cases ht
    · exact expect_error h

/-- **Programs can be completed.** -/
theorem fixes_program : Fixes n program (Stretch ProgramReads) fun _ => True := by
  have h := fixes_sugod.andThen (carries_expect (by simp)) (fun first =>
    (fixes_body fixes_statement (.inr rfl)).andThen (carries_body (.inr rfl)) (fun body =>
      fixes_katapusan.still fun last m => ⟨(⟨body, ⟨first.start, last.stop⟩⟩ : Program), rfl⟩)
      fun _ _ hm _ => hm.head) (n := n) fun _ _ _ _ => trivial
  refine h.mono ?_ fun _ h => h
  rintro c d ⟨_, ⟨hc, rfl⟩, m, ⟨ss, hss⟩, hm, rfl⟩
  exact ⟨_, .intro hc hss hm⟩

end

/-- What stands behind a program is never an error. -/
theorem whole_error {c d : Cursor} {e : SyntaxError} (h : whole c = .error e d) :
    program c = .error e d := by
  rcases bind_eq_error h with h | ⟨p, m, -, h⟩
  · exact h
  · rcases bind_eq_error h with h | ⟨t, m', -, h⟩
    · obtain ⟨d', hd'⟩ := trailing_eq_ok.2 (rfl : m.trailing = m.trailing)
      rw [hd'] at h
      cases h
    · cases h

theorem parseTokens_eq_error {ts : List Spanned} {e : SyntaxError} (h : parseTokens ts = .error e) :
    ∃ d, whole (.start ts) = .error e d := by
  unfold parseTokens runOn at h
  simp only [EStateM.run] at h
  cases hw : whole (.start ts) with
  | ok p d =>
      rw [hw] at h
      cases h
  | error e' d =>
      rw [hw] at h
      cases h
      exact ⟨d, rfl⟩

/-! ### No step over the end -/

/-- The second cursor is reached without a step over the end. -/
def Walks (c d : Cursor) : Prop := ∃ run, c.kinds = run ++ d.kinds ∧ Token.eof ∉ run

namespace Walks

variable {c m d : Cursor}

theorem refl (c : Cursor) : Walks c c := ⟨[], rfl, by simp⟩

theorem trans (h : Walks c m) (h' : Walks m d) : Walks c d := by
  obtain ⟨run, hk, hr⟩ := h
  obtain ⟨run', hk', hr'⟩ := h'
  exact ⟨run ++ run', by rw [hk, hk', List.append_assoc], by simp [hr, hr']⟩

theorem step (hc : c.current ≠ .eof) : Walks c c.step :=
  ⟨[c.current], Cursor.kinds_of_current hc, by simpa using hc.symm⟩

theorem cons {t : Token} (hc : c.current = t) (ht : t ≠ .eof) (h : Walks c.step d) : Walks c d :=
  (step (hc ▸ ht)).trans h

theorem kung {t : Token} (hk : atKung t c = true) (ht : t ≠ .eof) (h : Walks c.step.step d) :
    Walks c d := by
  obtain ⟨hc, hp⟩ := Bool.and_eq_true_iff.1 hk
  rw [Cursor.peek_eq] at hp
  exact .cons (eq_of_beq hc) (by simp) (.cons (eq_of_beq hp) ht h)

end Walks

theorem Reads.walks {min : Nat} {c d : Cursor} {e : Expr} (h : Reads min c e d) : Walks c d := by
  have hlead : ∀ {c : Cursor} {l : Lead}, lead? c = some l → Walks c c.step := by
    intro c l hl
    refine .step fun he => ?_
    rw [lead?_eof he] at hl
    cases hl
  induction h with
  | atom hl => exact hlead hl
  | unary hl _ _ ih => exact (hlead hl).trans ih
  | group hl _ hcl ih => exact (hlead hl).trans (ih.trans (.step (hcl ▸ closing_ne_eof _)))
  | binary _ hop _ _ _ ihl ihr => exact ihl.trans (.cons hop (by simp) ihr)

theorem NameReads.walks {c d : Cursor} {x : Name} (h : NameReads c x d) : Walks c d := by
  obtain ⟨hc, -, rfl⟩ := h
  exact .step (by simp [hc])

theorem DeclaredReads.walks {c d : Cursor} {v : Declared} (h : DeclaredReads c v d) :
    Walks c d := by
  cases h with
  | plain hn _ => exact hn.walks
  | value hn ha he => exact hn.walks.trans ((Walks.step (isAssign_ne_eof ha)).trans he.1.walks)

theorem TargetReads.walks {c d : Cursor} {x : Name} (h : TargetReads c x d) : Walks c d := by
  obtain ⟨hn, ha, rfl⟩ := h
  exact hn.walks.trans (.step (isAssign_ne_eof ha))

theorem Many.walks {α : Type} {more : Cursor → Bool} {R : Cursor → α → Cursor → Prop}
    (hR : ∀ c a d, more c = true → R c a d → Walks c d) {c d : Cursor} {as : List α}
    (h : Many more R c as d) : Walks c d := by
  induction h with
  | nil _ => exact .refl _
  | cons hm hr _ ih => exact (hR _ _ _ hm hr).trans ih

theorem CommaList.walks {α : Type} {R : Cursor → α → Cursor → Prop}
    (hR : ∀ c a d, R c a d → Walks c d) {c d : Cursor} {as : List α} (h : CommaList R c as d) :
    Walks c d := by
  obtain ⟨ha, has⟩ := h
  refine (hR _ _ _ ha).trans (has.walks fun c a d hc hr => ?_)
  exact (Walks.step (atComma_ne_eof hc)).trans (hR _ _ _ hr)

theorem AssignmentReads.walks {c d : Cursor} {a : Assignment} (h : AssignmentReads c a d) :
    Walks c d := by
  obtain ⟨ht, hts, he⟩ := h
  exact ht.walks.trans ((hts.walks fun _ _ _ _ h => h.walks).trans he.1.walks)

theorem TestReads.walks {c d : Cursor} {e : Expr} (h : TestReads c e d) : Walks c d := by
  obtain ⟨hc, he, hd⟩ := h
  exact .cons hc (by simp) (he.1.walks.trans (.cons hd (by simp) (.refl _)))

theorem LoopHead.walks {c d : Cursor} {first : Assignment} {test : Expr} {counter : Name}
    {step : Step} (h : LoopHead c first test counter step d) : Walks c d := by
  obtain ⟨hc, hs, hl, ha, hm, he, hm', hn, hstep, hr, rfl⟩ := h
  refine .cons hc (by simp) (.cons hs (by simp) (.cons hl (by simp) (ha.walks.trans ?_)))
  refine .cons hm (by simp) (he.1.walks.trans (.cons hm' (by simp) (hn.walks.trans ?_)))
  exact .cons hstep (by simp) (.cons hr (by simp) (.refl _))

theorem Items.walks {escaped : Bool} {c d : Cursor} {is : List PrintItem}
    (h : Items escaped c is d) : Walks c d := by
  induction h with
  | stop _ => exact .refl _
  | @escape escaped _ c _ _ hr _ ih =>
      exact (Walks.step (@itemRule_ne_eof escaped c (by simp [hr]))).trans ih
  | @skip escaped c _ _ hr _ ih =>
      exact (Walks.step (@itemRule_ne_eof escaped c (by simp [hr]))).trans ih
  | @item escaped c _ _ _ hr _ ih =>
      exact (Walks.step (@itemRule_ne_eof escaped c (by simp [hr]))).trans ih
  | expression _ he _ ih => exact he.1.walks.trans ih

theorem Derives.walks {c d : Cursor} {node : Node} (h : Derives c node d) : Walks c d := by
  induction h with
  | declaration hc ht hv =>
      exact .cons hc (by simp) (.cons ht (by simp) (hv.walks fun _ _ _ h => h.walks))
  | assignment ha => exact ha.walks
  | print hc hl hi => exact .cons hc (by simp) (.cons hl (by simp) hi.walks)
  | input hc hl hn =>
      exact .cons hc (by simp) (.cons hl (by simp) (hn.walks fun _ _ _ h => h.walks))
  | conditional hc ht _ _ ihb ihr => exact .cons hc (by simp) (ht.walks.trans (ihb.trans ihr))
  | loop hh _ ih => exact hh.walks.trans ih
  | block hc hl _ hr ih =>
      exact .cons hc (by simp) (.cons hl (by simp) (ih.trans (.cons hr (by simp) (.refl _))))
  | nothing _ _ => exact .refl _
  | branch hd ht _ _ ihb ihr => exact .kung hd (by simp) (ht.walks.trans (ihb.trans ihr))
  | always hw _ ih => exact .kung hw (by simp) ih
  | nil _ => exact .refl _
  | cons _ _ _ ihs ihb => exact ihs.trans ihb

/-- **A program holds no end.** -/
theorem ProgramReads.walks {c d : Cursor} {p : Program} (h : ProgramReads c p d) : Walks c d := by
  obtain ⟨hc, hss, hm⟩ := h
  exact .cons hc (by simp) (hss.walks.trans (.cons hm (by simp) (.refl _)))

/-! ### The tokens of a text -/

theorem takeSign_digit {c : Char} (h : isDigit c = true) (cs : List Char) :
    Number.takeSign (c :: cs) = (false, c :: cs) := by
  unfold Number.takeSign
  split
  · rename_i heq
    obtain ⟨rfl, -⟩ := List.cons.inj heq
    cases h
  · rename_i heq
    obtain ⟨rfl, -⟩ := List.cons.inj heq
    cases h
  · rfl

/-- A number is digits, and maybe a point and more digits. -/
theorem readFloat?_digits {whole rest : List Char} (hne : whole ≠ [])
    (hw : ∀ c ∈ whole, isDigit c = true) (hrest : EndsRun isDigit rest)
    (hf : (Number.takeFraction rest).2 = []) :
    (Number.readFloat? (whole ++ rest)).isSome = true := by
  obtain ⟨c, cs, rfl⟩ := List.exists_cons_of_ne_nil hne
  have hdecimal : (Number.readDecimal? (c :: cs ++ rest)).isSome = true := by
    obtain ⟨htake, hdrop⟩ := takeWhile_run hw hrest
    unfold Number.readDecimal?
    rw [htake, hdrop]
    simp [hf, Number.readExponent?]
  obtain ⟨x, hx⟩ := Option.isSome_iff_exists.1 hdecimal
  unfold Number.readFloat?
  rw [List.cons_append, takeSign_digit (hw c (by simp)), ← List.cons_append]
  simp only [hx]
  rfl

/-- The numbers of a text have values. -/
theorem Token.Spellable.readable {t : Token} (h : t.Spellable) : t.readable = true := by
  cases t with
  | integer s =>
      obtain ⟨hne, hs⟩ := h
      rw [Token.readable, ← List.append_nil s.toList]
      exact readFloat?_digits hne hs (endsRun_nil isDigit) rfl
  | decimal s =>
      obtain ⟨whole, fraction, hs, hne, -, hw, hf⟩ := h
      rw [Token.readable, hs]
      refine readFloat?_digits hne hw (fun c hc => by cases hc; rfl) ?_
      obtain ⟨-, hdrop⟩ := takeWhile_run hf (endsRun_nil isDigit)
      rwa [List.append_nil] at hdrop
  | _ => rfl

/-- The end of a text is one of its tokens, and the others can be read. -/
theorem tokens_of_tokenize {text : String} {tokens : List Spanned} (h : tokenize text = .ok tokens) :
    .eof ∈ tokens.map Spanned.token ∧ ∀ t ∈ tokens, t.token.readable = true := by
  obtain ⟨herror, rfl⟩ := Scan.result_eq_ok.1 h
  obtain ⟨body, hbody, -⟩ := (tiling_of_scan (.start text.toList) herror).ends
  refine ⟨by simp [hbody], fun t ht => ?_⟩
  have hlex := scan_eq_ok_iff.1 ⟨_, h, rfl⟩
  exact (hlex.spellable _ (List.mem_map_of_mem ht)).readable

/-! ### Errors -/

/-- What was read before an error holds no end and starts some program. -/
theorem viable_of_whole_error {tokens : List Spanned} {e : SyntaxError} {d : Cursor}
    (h : whole (.start tokens) = .error e d) :
    e.PointsAt d ∧ ∃ front, tokens = front ++ d.tokens ∧ .eof ∉ front.map Spanned.token ∧
      ∃ rest p, parseTokens (front ++ rest) = .ok p := by
  obtain ⟨hpoint, hto, w, hw⟩ :=
    (fixes_program.run (.start tokens) (Nat.le_refl _)).error (whole_error h)
  obtain ⟨m, ⟨p, hp⟩, hm⟩ := hw [] trivial
  refine ⟨hpoint, _, hto.takes.tokens, fun heof => ?_, unplaced w ++ [], ⟨p, m.trailing⟩,
    parseTokens_eq_ok.2 ⟨m, hp, rfl⟩⟩
  obtain ⟨run, hrun, hends⟩ := hp.walks
  rw [Cursor.kinds_splice, Cursor.kinds, hm, List.map_nil, List.append_nil, List.append_nil] at hrun
  exact hends (hrun ▸ List.mem_append_left _ heof)

/-- Where the parser stops with an error, the tokens that it has read start some program.  There is a
next token; unless the error is about brackets, it marks that token and names no other. -/
theorem errors_behind_viable_prefix {text : String} {tokens : List Spanned} {e : SyntaxError}
    (hlex : tokenize text = .ok tokens) (herr : parseTokens tokens = .error e) :
    ∃ k next d, whole (.start tokens) = .error e d ∧ d.tokens = tokens.drop k ∧
      tokens[k]? = some next ∧ (∃ rest p, parseTokens (tokens.take k ++ rest) = .ok p) ∧
      (e.fault ≠ .mismatchedBrackets →
        e.span = next.span ∧ ∀ t, e.fault.found? = some t → t = next.token) := by
  obtain ⟨d, hd⟩ := parseTokens_eq_error herr
  obtain ⟨hpoint, front, rfl, hends, hviable⟩ := viable_of_whole_error hd
  obtain ⟨heof, hread⟩ := tokens_of_tokenize hlex
  -- the end was not read, so that it is still to come
  obtain ⟨next, rest, hrest⟩ := List.exists_cons_of_ne_nil (l := d.tokens) fun hnil => by
    rw [hnil, List.append_nil] at heof
    exact hends heof
  refine ⟨front.length, next, d, hd, List.drop_left.symm, by simp [hrest], ?_, fun hfault => ?_⟩
  · rw [List.take_left]
    exact hviable
  · obtain ⟨hspan, hfound⟩ := hpoint hfault
    rw [Cursor.span, hrest] at hspan
    rw [Cursor.current, hrest] at hfound
    exact ⟨hspan, hfound (hread next (by simp [hrest]))⟩

/-- The tokens of a text that is no program, and the error. -/
theorem exists_of_rejected (text : String)
    (h : ((tokenize text).toOption.any fun tokens => !(parseTokens tokens).isOk) = true) :
    ∃ tokens e, tokenize text = .ok tokens ∧ parseTokens tokens = .error e := by
  cases htokens : tokenize text with
  | error e =>
      rw [htokens] at h
      cases h
  | ok tokens =>
      rw [htokens] at h
      cases hp : parseTokens tokens with
      | ok p =>
          change (!(parseTokens tokens).isOk) = true at h
          rw [hp] at h
          cases h
      | error e => exact ⟨tokens, e, rfl, hp⟩

/-- An operand is missing in a block, inside a bracket. -/
theorem errors_behind_viable_prefix_operand :
    ∃ tokens e, tokenize "SUGOD KUNG (DILI x) PUNDOK \x7b x = y = [-2 * \x7d KATAPUSAN" = .ok tokens ∧
      parseTokens tokens = .error e ∧
      ∃ k next d, whole (.start tokens) = .error e d ∧ d.tokens = tokens.drop k ∧
        tokens[k]? = some next ∧ (∃ rest p, parseTokens (tokens.take k ++ rest) = .ok p) ∧
        (e.fault ≠ .mismatchedBrackets →
          e.span = next.span ∧ ∀ t, e.fault.found? = some t → t = next.token) := by
  obtain ⟨tokens, e, hlex, herr⟩ := exists_of_rejected
    "SUGOD KUNG (DILI x) PUNDOK \x7b x = y = [-2 * \x7d KATAPUSAN" (by decide +kernel)
  exact ⟨tokens, e, hlex, herr, errors_behind_viable_prefix hlex herr⟩

end BisayaLang
