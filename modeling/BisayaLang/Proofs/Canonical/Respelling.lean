/-
**Tokens written out again.**

The tokens of a text can be written out one after the other, and are read back as they are, whatever
blanks stand between them.  The blanks may be of any kind and number, but there have to be some:
without them one token might run into the next, and two minus signs would be a comment.

A step down is different, since it is one only where a name ends, and else a comment.  So nothing may
stand before it.  Every step down that was ever read has a name before it, and a name does not go on
with a minus.

Main definitions:

* `BisayaLang.Token.written` — a token as it is written, with the quotes of a quoted text;
* `BisayaLang.respell` — tokens that are written out, with gaps between them.

Main results:

* `BisayaLang.Lexes.glued_of_decrement` — a step down stands only where a name ends;
* `BisayaLang.lexes_written` — a token that is written out is read as itself;
* `BisayaLang.Lexes.lexes_respell` — tokens that are written out are read as themselves;
* `BisayaLang.tokenize_respell` — **writing out the tokens of a text loses none of them**.
-/

import BisayaLang.Proofs.Canonical.Pieces
import BisayaLang.Proofs.Token.Lines

set_option relaxedAutoImplicit false
set_option autoImplicit false

namespace BisayaLang

open Text

/-! ### Writing tokens out -/

/-- The token as it is written.  A text is put in double quotes, unless it holds one. -/
def Token.written : Token → String
  | .text content =>
      if '"' ∈ content.toList then "'" ++ content ++ "'" else "\"" ++ content ++ "\""
  | t => t.literal

/-- The tokens written out, with a gap behind each but the last.  There is none before a step down. -/
def respell (gap : Nat → String) : List Token → String
  | [] => ""
  | [t] => t.written
  | t :: u :: ts =>
      t.written ++ (if u = .step .decrement then "" else gap 0) ++
        respell (fun i => gap (i + 1)) (u :: ts)

/-- A text of blanks that is not empty. -/
def IsGap (s : String) : Prop := s ≠ "" ∧ ∀ c ∈ s.toList, isSpace c = true

/-! ### Steps down -/

theorem ofWord_ne_step (word : String) (step : Step) : Token.ofWord word ≠ .step step := by
  unfold Token.ofWord Token.ofWord?
  split <;> simp

theorem glued_of_symbol? {glued : Bool} {c : Char} {d : Option Char} {n : Nat}
    (h : Token.symbol? glued c d = some (.step .decrement, n)) : glued = true := by
  unfold Token.symbol? at h
  split at h
  · split at h
    · assumption
    · cases h
  all_goals simp at h

theorem glued_of_recognise {glued : Bool} {cs : List Char} {n : Nat}
    (h : Token.recognise glued cs = .token (.step .decrement) n) : glued = true := by
  cases cs with
  | nil => cases h
  | cons c cs =>
      simp only [Token.recognise] at h
      split at h
      · unfold Token.readString at h
        split at h <;> cases h
      split at h
      · unfold Token.readCharacter at h
        split at h
        · cases h
        · cases h
        · split at h <;> cases h
      split at h
      · unfold Token.readNumber at h
        split at h
        · split at h <;> cases h
        · cases h
      split at h
      · exact absurd (Lexeme.token.inj h).1 (ofWord_ne_step _ _)
      · split at h
        · rename_i hsym
          cases h
          exact glued_of_symbol? hsym
        · cases h

/-- **A step down stands only where a name ends.** -/
theorem Lexes.glued_of_decrement {glued : Bool} {cs : List Char} {ts : List Token}
    (h : Lexes glued cs (.step .decrement :: ts)) : glued = true := by
  cases h with
  | token _ hrec _ =>
      have hdec := glued_of_recognise hrec
      simp only [decrementAhead, Bool.and_eq_true] at hdec
      exact hdec.1.1

/-! ### One token -/

theorem lexes_gap {gap : List Char} (hne : gap ≠ []) (hgap : ∀ c ∈ gap, isSpace c = true)
    (glued : Bool) {cs : List Char} {ts : List Token} :
    Lexes glued (gap ++ cs) ts ↔ Lexes false cs ts := by
  induction gap generalizing glued with
  | nil => exact absurd rfl hne
  | cons c gap ih =>
      rw [List.cons_append, lexes_blank (hgap c (by simp))]
      by_cases hnil : gap = []
      · rw [hnil, List.nil_append]
      · exact ih hnil (fun d hd => hgap d (by simp [hd])) false

/-- No token goes on with a blank. -/
theorem endsRun_of_gap {gap : List Char} (hne : gap ≠ []) (hgap : ∀ c ∈ gap, isSpace c = true)
    (cs : List Char) : EndsRun continuesToken (gap ++ cs) := by
  obtain ⟨d, gap, rfl⟩ := List.exists_cons_of_ne_nil hne
  intro c hc
  cases hc
  have hspace := hgap d (by simp)
  simp only [isSpace, Bool.or_eq_true, decide_eq_true_eq] at hspace
  rcases hspace with (((rfl | rfl) | rfl) | rfl) | rfl <;> decide +kernel

theorem lexes_text {content : String} (hs : (Token.text content).Spellable) (glued : Bool)
    {cs : List Char} {ts : List Token} (h : Lexes false cs ts) :
    Lexes glued ((Token.text content).written.toList ++ cs) (.text content :: ts) := by
  simp only [Token.written]
  split
  · rename_i hq
    obtain rfl := hs.2 hq
    exact (lexes_piece (p := .quote) trivial (by simp) trivial (by simp [Piece.isMinus]) glued).2
      ⟨ts, rfl, h⟩
  · rename_i hq
    have hne : content ≠ "\"" := by
      rintro rfl
      exact hq (by decide)
    have hchars : ("\"" ++ content ++ "\"").toList = (Piece.quoted content).chars := by
      simp [Piece.chars]
    rw [hchars]
    exact (lexes_quoted hs hne glued).2 ⟨ts, rfl, h⟩

/-- **A token that is written out is read as itself**, if what follows does not go on with it.  A name may
also stand right before a step. -/
theorem lexes_written {t : Token} (hs : t.Spellable) (ht : t ≠ .eof) {glued : Bool}
    (hstep : t = .step .decrement → glued = true) {cs : List Char}
    (hcs : EndsRun continuesToken cs ∨ t.isName = true ∧ EndsRun continuesName cs) {ts : List Token}
    (h : Lexes t.isName cs ts) : Lexes glued (t.written.toList ++ cs) (t :: ts) := by
  have hplain : t.isPlain = true → t.isName = false →
      Lexes glued (t.literal.toList ++ cs) (t :: ts) := by
    intro hp hname
    have hend : EndsRun continuesToken cs := hcs.resolve_right fun h => by simp [hname] at h
    have hminus : t = .minus → cs.head? ≠ some '-' := fun _ hc => absurd (hend _ hc) (by decide +kernel)
    exact (lexes_of_recognise hp hs (recognise_plain hp hs hend) hminus glued).2 ⟨ts, rfl, h⟩
  cases t with
  | name s =>
      have hend : EndsRun continuesName cs :=
        hcs.elim (fun h => h.mono fun c hc => by simp [continuesToken, hc]) And.right
      exact (lexes_of_recognise rfl hs (recognise_name hs hend) (by simp [Token.minus]) glued).2
        ⟨ts, rfl, h⟩
  | text content => exact lexes_text hs glued h
  | step s =>
      cases s with
      | increment =>
          exact (lexes_run (by decide) (fun h => absurd h (by decide)) rfl glued).2 ⟨ts, rfl, h⟩
      | decrement =>
          rw [hstep rfl]
          exact (lexes_step .decrement).2 ⟨ts, rfl, h⟩
  | eof => exact absurd rfl ht
  | integer | decimal | oo | dili | word | type | op | mark => exact hplain rfl rfl

/-! ### All tokens -/

theorem respell_cons (gap : Nat → String) (t : Token) (ts : List Token) :
    ∃ more, respell gap (t :: ts) = t.written ++ more := by
  cases ts with
  | nil => exact ⟨"", String.append_empty.symm⟩
  | cons u ts => exact ⟨_, String.append_assoc⟩

/-- **Tokens that are written out are read as themselves.**  The induction is on how they were read before,
which also says that a name stands before each step down; the text they are written to may follow a
name or not, unless it starts with such a step. -/
theorem Lexes.lexes_respell {glued : Bool} {cs : List Char} {all : List Token} (h : Lexes glued cs all) :
    ∀ ts, all = ts ++ [.eof] → ∀ gap : Nat → String, (∀ i, IsGap (gap i)) →
      ∀ glued' : Bool, (ts.head? = some (.step .decrement) → glued' = true) →
        Lexes glued' (respell gap ts).toList all := by
  induction h with
  | stop _ =>
      intro ts hts gap _ glued' _
      obtain rfl : ts = [] := List.eq_nil_of_length_eq_zero (by simpa using congrArg List.length hts)
      exact .stop (by cases glued' <;> rfl)
  | @token _ _ t n rest hne hrec hrest ih =>
      intro ts hts gap hgap glued' hglued
      have hs : t.Spellable := (spelled_of_recognise hne hrec).spellable
      have ht : t ≠ .eof := recognise_ne_eof hne hrec
      match ts with
      | [] => exact absurd (List.cons.inj hts).1 ht
      | [u] =>
          obtain ⟨rfl, rfl⟩ := List.cons.inj hts
          have hend := ih [] rfl gap hgap t.isName (by simp)
          rw [← List.append_nil (respell gap [t]).toList]
          exact lexes_written hs ht (fun h => hglued (by rw [h]; rfl)) (.inl (endsRun_nil _)) hend
      | u :: v :: ts =>
          obtain ⟨rfl, rfl⟩ := List.cons.inj hts
          have hlater := ih (v :: ts) rfl (fun i => gap (i + 1)) fun i => hgap (i + 1)
          have hfirst : t = .step .decrement → glued' = true := fun h => hglued (by rw [h]; rfl)
          rw [respell]
          by_cases hv : v = .step .decrement
          · -- a step down comes next, so that this token is a name and nothing stands between them
            subst hv
            have hname : t.isName = true := hrest.glued_of_decrement
            have hminus : EndsRun continuesName
                (respell (fun i => gap (i + 1)) (.step .decrement :: ts)).toList := by
              obtain ⟨more, hmore⟩ := respell_cons (fun i => gap (i + 1)) (.step .decrement) ts
              intro c hc
              rw [hmore, String.toList_append] at hc
              cases hc
              decide
            rw [if_pos rfl, String.append_empty, String.toList_append]
            exact lexes_written hs ht hfirst (.inr ⟨hname, hminus⟩) (hlater _ fun _ => hname)
          · obtain ⟨hgne, hspace⟩ := hgap 0
            have hgne' : (gap 0).toList ≠ [] := by simpa using hgne
            rw [if_neg hv, String.toList_append, String.toList_append, List.append_assoc]
            refine lexes_written hs ht hfirst (.inl (endsRun_of_gap hgne' hspace _)) ?_
            exact (lexes_gap hgne' hspace _).2 (hlater false fun h => absurd (Option.some.inj h) hv)

/-- **Writing out the tokens of a text loses none of them.**  The text of all tokens but the end, with any
blanks between them, has the same tokens, and the end behind them. -/
theorem tokenize_respell {text : String} {tokens : List Spanned} (h : tokenize text = .ok tokens)
    {gap : Nat → String} (hgap : ∀ i, IsGap (gap i)) :
    ∃ ts, tokens.map Spanned.token = ts ++ [.eof] ∧
      ∃ again, tokenize (respell gap ts) = .ok again ∧ again.map Spanned.token = ts ++ [.eof] := by
  have hlexes : Lexes false text.toList (tokens.map Spanned.token) := scan_eq_ok_iff.1 ⟨tokens, h, rfl⟩
  obtain ⟨body, hbody, -⟩ := tokenize_ends h
  obtain ⟨ts, hts⟩ : ∃ ts, tokens.map Spanned.token = ts ++ [.eof] :=
    ⟨body.map Spanned.token, by rw [hbody, List.map_append]; rfl⟩
  have hfirst : ts.head? = some (.step .decrement) → false = true := by
    intro hhead
    obtain ⟨us, rfl⟩ := List.head?_eq_some_iff.1 hhead
    rw [hts] at hlexes
    exact hlexes.glued_of_decrement
  have hagain := hlexes.lexes_respell ts hts gap hgap false hfirst
  rw [hts] at hagain
  exact ⟨ts, hts, scan_eq_ok_iff.2 hagain⟩

/-- A sign right behind the mark of assignment, a double quote that is quoted, a comment, and a step down
behind a name. -/
theorem tokenize_respell_step :
    tokenize "x=-1.5&'\"'--y\ni--" = .ok [⟨⟨0, 1⟩, .name "x"⟩, ⟨⟨1, 2⟩, .mark .assign⟩,
      ⟨⟨2, 3⟩, .minus⟩, ⟨⟨3, 6⟩, .decimal "1.5"⟩, ⟨⟨6, 7⟩, .mark .ampersand⟩, ⟨⟨7, 10⟩, .text "\""⟩,
      ⟨⟨14, 15⟩, .name "i"⟩, ⟨⟨15, 17⟩, .step .decrement⟩, ⟨.point 17, .eof⟩] ∧
    IsGap "\t\n" ∧
    ∃ again, tokenize "x\t\n=\t\n-\t\n1.5\t\n&\t\n'\"'\t\ni--" = .ok again ∧
      again.map Spanned.token = [.name "x", .mark .assign, .minus, .decimal "1.5", .mark .ampersand,
        .text "\"", .name "i", .step .decrement, .eof] := by
  have htokens : tokenize "x=-1.5&'\"'--y\ni--" = .ok ([⟨⟨0, 1⟩, .name "x"⟩,
      ⟨⟨1, 2⟩, .mark .assign⟩, ⟨⟨2, 3⟩, .minus⟩, ⟨⟨3, 6⟩, .decimal "1.5"⟩, ⟨⟨6, 7⟩, .mark .ampersand⟩,
      ⟨⟨7, 10⟩, .text "\""⟩, ⟨⟨14, 15⟩, .name "i"⟩, ⟨⟨15, 17⟩, .step .decrement⟩] ++
      [⟨.point 17, .eof⟩]) := by
    with_unfolding_all rfl
  have hgap : IsGap "\t\n" := ⟨by decide, List.all_eq_true.1 (by decide)⟩
  obtain ⟨ts, hts, hagain⟩ := tokenize_respell htokens fun _ => hgap
  rw [List.map_append] at hts
  obtain rfl := (List.append_inj' hts rfl).1
  exact ⟨htokens, hgap, hagain⟩

end BisayaLang
