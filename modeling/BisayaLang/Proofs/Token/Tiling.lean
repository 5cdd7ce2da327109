/-
**Tokens tile the text.**

A text that can be read falls into pieces: what only separates, a token, what only separates, and so on
up to the end.  The spans of the tokens are the places of their pieces, so that they lie in order and
between characters, and the characters at a span spell the token.  One step of the scanner cuts off one
gap and one token; a run of the scanner cuts up the whole text.

Main definitions:

* `BisayaLang.Trivia`, `BisayaLang.Gap` — what stands between two tokens;
* `BisayaLang.Tiling` — the text falls into gaps and the given tokens;
* `BisayaLang.Token.SpelledBy` — the characters are a spelling of the token.

Main results:

* `BisayaLang.Scanner.next_cases` — what one step of the scanner does;
* `BisayaLang.tiling_of_scan` — **what the scanner reads falls into gaps and tokens**;
* `BisayaLang.Tiling.fits`, `BisayaLang.Tiling.ordered` — the spans fit the text and do not overlap.
-/

import BisayaLang.Proofs.Source.Slice
import BisayaLang.Proofs.Token.Spelling

set_option relaxedAutoImplicit false
set_option autoImplicit false

namespace BisayaLang

open Text

/-! ### Between two tokens -/

/-- Blanks, and comments up to the end of their lines.  Only the last comment of a text has no end of a
line behind it. -/
inductive Trivia : (last : Bool) → List Char → Prop
  | nil {last : Bool} : Trivia last []
  | blank {last : Bool} {c : Char} {cs : List Char} : isSpace c = true → Trivia last cs →
      Trivia last (c :: cs)
  | comment {last : Bool} {body cs : List Char} : '\n' ∉ body → Trivia last cs →
      Trivia last ('-' :: '-' :: (body ++ '\n' :: cs))
  | tail {body : List Char} : '\n' ∉ body → Trivia true ('-' :: '-' :: body)

/-- What stands before a token, or before the end if it is the last gap.  No comment starts where a name
ends. -/
structure Gap (glued last : Bool) (cs : List Char) : Prop where
  trivia : Trivia last cs
  notComment : glued = true → ¬['-', '-'] <+: cs

/-- The rest of a comment, and what follows it up to the next token. -/
def CommentRest (last : Bool) (cs : List Char) : Prop :=
  (∃ body rest, cs = body ++ '\n' :: rest ∧ '\n' ∉ body ∧ Trivia last rest) ∨
    (last = true ∧ '\n' ∉ cs)

theorem CommentRest.cons {last : Bool} {c : Char} {cs : List Char} (hc : c ≠ '\n')
    (h : CommentRest last cs) : CommentRest last (c :: cs) := by
  rcases h with ⟨body, rest, rfl, hbody, hrest⟩ | ⟨hlast, hcs⟩
  · refine .inl ⟨c :: body, rest, rfl, ?_, hrest⟩
    rw [List.mem_cons, not_or]
    exact ⟨hc.symm, hbody⟩
  · refine .inr ⟨hlast, ?_⟩
    rw [List.mem_cons, not_or]
    exact ⟨hc.symm, hcs⟩

/-- A comment that has started goes on behind its second minus. -/
theorem CommentRest.trivia {last : Bool} {cs : List Char} (h : CommentRest last ('-' :: cs)) :
    Trivia last ('-' :: '-' :: cs) := by
  rcases h with ⟨body, rest, heq, hbody, hrest⟩ | ⟨rfl, hcs⟩
  · cases body with
    | nil => exact absurd (List.cons.inj heq).1 (by decide)
    | cons d body =>
        obtain ⟨rfl, rfl⟩ := List.cons.inj heq
        exact .comment (fun h => hbody (List.mem_cons_of_mem _ h)) hrest
  · exact .tail fun h => hcs (List.mem_cons_of_mem _ h)

/-- What is skipped before a token is trivia, or the rest of a comment and trivia. -/
theorem afterTrivia_skips (comment : Bool) (cs : List Char) :
    ∃ skipped, cs = skipped ++ afterTrivia comment cs ∧
      match comment with
      | false => Trivia (afterTrivia comment cs).isEmpty skipped
      | true => CommentRest (afterTrivia comment cs).isEmpty skipped := by
  induction cs generalizing comment with
  | nil =>
      refine ⟨[], by cases comment <;> rfl, ?_⟩
      cases comment with
      | false => exact .nil
      | true => exact .inr ⟨rfl, by simp⟩
  | cons c cs ih =>
      cases comment with
      | true =>
          rw [afterTrivia]
          by_cases hc : c = '\n'
          · subst hc
            obtain ⟨skipped, hs, ht⟩ := ih false
            exact ⟨'\n' :: skipped, congrArg ('\n' :: ·) hs, .inl ⟨[], skipped, rfl, by simp, ht⟩⟩
          · have hflag : (c != '\n') = true := by simpa using hc
            rw [hflag]
            obtain ⟨skipped, hs, ht⟩ := ih true
            exact ⟨c :: skipped, congrArg (c :: ·) hs, .cons hc ht⟩
      | false =>
          rw [afterTrivia]
          split
          · rename_i hspace
            obtain ⟨skipped, hs, ht⟩ := ih false
            exact ⟨c :: skipped, congrArg (c :: ·) hs, .blank hspace ht⟩
          · split
            · rename_i hdash
              obtain ⟨rfl, hhead⟩ := hdash
              obtain ⟨skipped, hs, ht⟩ := ih true
              refine ⟨'-' :: skipped, congrArg ('-' :: ·) hs, ?_⟩
              -- the second minus is among what is skipped, since a comment takes all of its line
              cases skipped with
              | nil =>
                  rcases ht with ⟨body, rest, heq, -, -⟩ | ⟨hlast, -⟩
                  · exact absurd heq (by simp)
                  · have hnil : cs = [] := by
                      rw [hs, List.isEmpty_iff.1 hlast]
                      rfl
                    rw [hnil] at hhead
                    exact absurd hhead (by simp)
              | cons d skipped =>
                  have hd : d = '-' := by
                    rw [hs] at hhead
                    exact Option.some.inj hhead
                  subst hd
                  exact ht.trivia
            · exact ⟨[], rfl, .nil⟩

/-- What is skipped before a token is a gap. -/
theorem nextText_gap (glued : Bool) (cs : List Char) :
    ∃ gap, cs = gap ++ nextText glued cs ∧ Gap glued (nextText glued cs).isEmpty gap := by
  unfold nextText
  split
  · exact ⟨[], rfl, .nil, fun _ h => absurd h (by simp)⟩
  · rename_i hdec
    obtain ⟨gap, hs, ht⟩ := afterTrivia_skips false cs
    refine ⟨gap, hs, ht, fun hg hpre => hdec ?_⟩
    -- a comment right behind a name would be the step of a loop
    obtain ⟨rest, hrest⟩ := hpre
    rw [hs, ← hrest, hg]
    rfl

/-! ### One step of the scanner -/

theorem skipTrivia_fst (comment : Bool) (offset : Nat) (cs : List Char) :
    (Scanner.skipTrivia comment offset cs).1 + byteLength (afterTrivia comment cs) =
      offset + byteLength cs := by
  induction cs generalizing comment offset with
  | nil => cases comment <;> rfl
  | cons c cs ih =>
      cases comment with
      | true =>
          rw [Scanner.skipTrivia, afterTrivia, ih, byteLength_cons]
          omega
      | false =>
          rw [Scanner.skipTrivia, afterTrivia]
          split
          · rw [ih, byteLength_cons]
            omega
          · split
            · rw [ih, byteLength_cons]
              omega
            · rfl

theorem Scanner.skip_fst {s : Scanner} {gap : List Char}
    (h : s.rest = gap ++ nextText s.glued s.rest) : s.skip.1 = s.offset + byteLength gap := by
  have hbytes := congrArg byteLength h
  rw [byteLength_append] at hbytes
  unfold Scanner.skip
  unfold nextText at hbytes
  change (if decrementAhead s.glued s.rest then (s.offset, s.rest)
    else skipTrivia false s.offset s.rest).1 = _
  split
  · rename_i hdec
    rw [if_pos hdec] at hbytes
    show s.offset = _
    omega
  · rename_i hdec
    rw [if_neg hdec] at hbytes
    have hfst := skipTrivia_fst false s.offset s.rest
    omega

theorem advance_fst (n offset : Nat) (cs : List Char) :
    (Scanner.advance n offset cs).1 = offset + byteLength (cs.take n) := by
  induction n generalizing offset cs with
  | zero => rw [List.take_zero, byteLength_nil]; rfl
  | succ n ih =>
      cases cs with
      | nil => rfl
      | cons c cs =>
          rw [Scanner.advance, ih, List.take_succ_cons, byteLength_cons]
          omega

/-- **What one step of the scanner does**: it steps over a gap, and takes the characters of a token or
reports a fault where the gap ends. -/
theorem Scanner.next_cases (s : Scanner) :
    ∃ gap, s.rest = gap ++ nextText s.glued s.rest ∧
      Gap s.glued (nextText s.glued s.rest).isEmpty gap ∧
      match Token.recognise (decrementAhead s.glued s.rest) (nextText s.glued s.rest) with
      | .token t n => ∃ stop,
          stop = s.offset + byteLength gap + byteLength ((nextText s.glued s.rest).take n) ∧
          s.next = (.ok ⟨⟨s.offset + byteLength gap, stop⟩, t⟩,
            ⟨(nextText s.glued s.rest).drop n, stop, t.isName⟩)
      | .fault f reported consumed => s.next =
          (.error ⟨f, ⟨s.offset + byteLength gap,
              s.offset + byteLength gap + byteLength ((nextText s.glued s.rest).take reported)⟩⟩,
            ⟨(nextText s.glued s.rest).drop consumed,
              s.offset + byteLength gap + byteLength ((nextText s.glued s.rest).take consumed),
              false⟩) := by
  obtain ⟨gap, hrest, hgap⟩ := nextText_gap s.glued s.rest
  refine ⟨gap, hrest, hgap, ?_⟩
  have hskip : s.skip = (s.offset + byteLength gap, nextText s.glued s.rest) :=
    Prod.ext (s.skip_fst hrest) s.skip_snd
  have hadvance : ∀ n offset cs, advance n offset cs = (offset + byteLength (cs.take n), cs.drop n) :=
    fun n offset cs => Prod.ext (advance_fst n offset cs) (advance_snd n offset cs)
  have hat : s.atDecrement = decrementAhead s.glued s.rest := rfl
  unfold Scanner.next
  rw [hskip, hat]
  cases hrec : Token.recognise (decrementAhead s.glued s.rest) (nextText s.glued s.rest) with
  | token t n =>
      simp only [hrec, hadvance]
      exact ⟨_, rfl, rfl⟩
  | fault f reported consumed => simp only [hrec, hadvance]

/-- A step that comes to the end has stepped over the last gap. -/
theorem Scanner.next_end {s s' : Scanner} {t : Spanned} (h : s.next = (.ok t, s'))
    (ht : t.token = .eof) :
    Gap s.glued true s.rest ∧ t = ⟨.point (s.offset + byteLength s.rest), .eof⟩ ∧ s'.rest = [] := by
  obtain ⟨gap, hrest, hgap, hcases⟩ := s.next_cases
  by_cases hne : nextText s.glued s.rest = []
  · rw [hne] at hrest hgap hcases
    obtain ⟨stop, rfl, heq⟩ := hcases
    rw [h] at heq
    cases heq
    rw [List.append_nil] at hrest
    rw [hrest]
    exact ⟨hgap, rfl, rfl⟩
  · cases hrec : Token.recognise (decrementAhead s.glued s.rest) (nextText s.glued s.rest) with
    | token u n =>
        rw [hrec] at hcases
        obtain ⟨stop, -, heq⟩ := hcases
        rw [h] at heq
        cases heq
        exact absurd ht (recognise_ne_eof hne hrec)
    | fault f reported consumed =>
        rw [hrec, h] at hcases
        cases hcases

/-- Any other step has stepped over a gap and taken the characters of a token. -/
theorem Scanner.next_token {s s' : Scanner} {t : Spanned} (h : s.next = (.ok t, s'))
    (ht : t.token ≠ .eof) :
    ∃ gap lexeme, s.rest = gap ++ lexeme ++ s'.rest ∧ Gap s.glued false gap ∧ lexeme ≠ [] ∧
      Spelled lexeme t.token ∧ t.span = ⟨s.offset + byteLength gap, s'.offset⟩ ∧
      s'.offset = s.offset + byteLength gap + byteLength lexeme ∧ s'.glued = t.token.isName := by
  obtain ⟨gap, hrest, hgap, hcases⟩ := s.next_cases
  by_cases hne : nextText s.glued s.rest = []
  · rw [hne] at hcases
    obtain ⟨stop, -, heq⟩ := hcases
    rw [h] at heq
    cases heq
    exact absurd rfl ht
  · cases hrec : Token.recognise (decrementAhead s.glued s.rest) (nextText s.glued s.rest) with
    | token u n =>
        rw [hrec] at hcases
        obtain ⟨stop, hstop, heq⟩ := hcases
        rw [h] at heq
        cases heq
        refine ⟨gap, (nextText s.glued s.rest).take n, ?_, ?_, ?_, spelled_of_recognise hne hrec, rfl,
          hstop, rfl⟩
        · rw [List.append_assoc, List.take_append_drop]
          exact hrest
        · rwa [List.isEmpty_eq_false_iff.2 hne] at hgap
        · obtain ⟨c, cs, hcs⟩ := List.exists_cons_of_ne_nil hne
          have hpos := Token.recognise_pos (hcs ▸ hrec)
          rw [hcs, List.take_cons hpos]
          simp
    | fault f reported consumed =>
        rw [hrec, h] at hcases
        cases hcases

/-! ### The whole text -/

/-- From an offset on, the text falls into gaps and the given tokens, up to its end.  The flag says that
a name ends right before it. -/
inductive Tiling : (glued : Bool) → (offset : Nat) → List Char → List Spanned → Prop
  | stop {glued : Bool} {offset : Nat} {gap : List Char} : Gap glued true gap →
      Tiling glued offset gap [⟨.point (offset + byteLength gap), .eof⟩]
  | token {glued : Bool} {offset stop : Nat} {gap lexeme rest : List Char} {t : Token}
      {ts : List Spanned} : Gap glued false gap → lexeme ≠ [] → Spelled lexeme t → t ≠ .eof →
      stop = offset + byteLength gap + byteLength lexeme → Tiling t.isName stop rest ts →
      Tiling glued offset (gap ++ lexeme ++ rest) (⟨⟨offset + byteLength gap, stop⟩, t⟩ :: ts)

/-- **What the scanner reads falls into gaps and tokens.** -/
theorem tiling_of_scan (s : Scanner) (h : s.scan.error = none) :
    Tiling s.glued s.offset s.rest s.scan.tokens := by
  induction s using Scanner.scan.induct with
  | case1 s e s' hnext =>
      rw [Scanner.scan_of_fault hnext] at h
      exact absurd h (by simp)
  | case2 s t s' hnext ht =>
      rw [Scanner.scan_of_next hnext, if_pos ht]
      obtain ⟨hgap, rfl, -⟩ := Scanner.next_end hnext ht
      exact .stop hgap
  | case3 s t s' hnext ht ih =>
      rw [Scanner.scan_of_next hnext, if_neg ht] at h ⊢
      obtain ⟨gap, lexeme, hrest, hgap, hne, hspelled, hspan, hstop, hglued⟩ :=
        Scanner.next_token hnext ht
      obtain ⟨span, token⟩ := t
      simp only at hspelled hspan hglued
      have hlater := ih h
      rw [hglued] at hlater
      rw [hrest, hspan]
      exact .token hgap hne hspelled ht hstop hlater

/-- The characters are a spelling of the token: its own text, and quotes around it if it is quoted.  Any
kind of quotes will do, but between single ones stands one character. -/
def Token.SpelledBy (cs : List Char) : Token → Prop
  | .text content => cs.map foldQuote = '"' :: (content.toList ++ ['"']) ∨
      ∃ c, content.toList = [c] ∧ cs.map foldQuote = ['\'', c, '\'']
  | t => cs = t.literal.toList

theorem Spelled.spelledBy {cs : List Char} {t : Token} (h : Spelled cs t) : t.SpelledBy cs := by
  have hliteral : ∀ {t : Token}, (∀ content, t ≠ .text content) → cs = t.literal.toList →
      t.SpelledBy cs := by
    intro t ht hcs
    cases t with
    | text content => exact absurd rfl (ht content)
    | _ => exact hcs
  cases h with
  | @string q q' content hq hq' _ =>
      refine .inl ?_
      rw [List.map_cons, List.map_append, List.map_singleton, hq, hq', String.toList_ofList]
  | @character q c q' hq hq' =>
      refine .inr ⟨foldQuote c, String.toList_ofList, ?_⟩
      rw [List.map_cons, List.map_cons, List.map_singleton, hq, hq']
  | integer _ _ => exact hliteral (by simp) String.toList_ofList.symm
  | decimal _ _ _ _ => exact hliteral (by simp) String.toList_ofList.symm
  | @word c cs _ _ =>
      refine hliteral ?_ ?_
      · intro content
        unfold Token.ofWord Token.ofWord?
        split <;> simp
      · rw [literal_ofWord, String.toList_ofList]
  | symbol hsym =>
      refine hliteral ?_ rfl
      rcases symbol?_kind hsym with ⟨_, rfl⟩ | ⟨_, rfl⟩ | ⟨_, rfl⟩ <;> simp

namespace Tiling

variable {glued : Bool} {offset : Nat} {cs : List Char} {ts : List Spanned}

/-- The end is the last token and takes no characters; every other token takes some. -/
theorem ends (h : Tiling glued offset cs ts) :
    ∃ body, ts = body ++ [⟨.point (offset + byteLength cs), .eof⟩] ∧
      ∀ t ∈ body, t.token ≠ .eof ∧ t.span.start < t.span.stop := by
  induction h with
  | stop _ => exact ⟨[], rfl, by simp⟩
  | @token _ offset stop gap lexeme rest t ts _ hne _ ht hstop _ ih =>
      obtain ⟨body, rfl, hbody⟩ := ih
      have hpos := byteLength_pos hne
      refine ⟨⟨⟨offset + byteLength gap, stop⟩, t⟩ :: body, ?_, ?_⟩
      · rw [List.cons_append, hstop, byteLength_append, byteLength_append]
        simp only [Nat.add_assoc]
      · intro u hu
        rcases List.mem_cons.1 hu with rfl | hu
        · exact ⟨ht, by simp only; omega⟩
        · exact hbody u hu

/-- No token starts before the offset. -/
theorem offset_le (h : Tiling glued offset cs ts) : ∀ t ∈ ts, offset ≤ t.span.start := by
  induction h with
  | stop _ =>
      intro t ht
      rw [List.mem_singleton.1 ht]
      exact Nat.le_add_right _ _
  | token _ _ _ _ hstop _ ih =>
      intro t ht
      rcases List.mem_cons.1 ht with rfl | ht
      · exact Nat.le_add_right _ _
      · have hle := ih t ht
        omega

/-- The tokens lie one behind the other. -/
theorem ordered (h : Tiling glued offset cs ts) :
    ts.Pairwise fun t u => t.span.stop ≤ u.span.start := by
  induction h with
  | stop _ => exact List.pairwise_singleton _ _
  | token _ _ _ _ _ hrest ih => exact .cons (fun u hu => hrest.offset_le u hu) ih

/-- The characters at the span of a token spell it.  The induction goes along the text, and `before` is
what has been passed of it. -/
theorem spelled (h : Tiling glued offset cs ts) (before : List Char)
    (hb : byteLength before = offset) :
    ∀ t ∈ ts, t.token ≠ .eof → ∃ part, Slice (before ++ cs) t.span part ∧ Spelled part t.token := by
  induction h generalizing before with
  | stop _ =>
      intro t ht hne
      rw [List.mem_singleton.1 ht] at hne
      exact absurd rfl hne
  | @token _ offset stop gap lexeme rest t ts _ _ hsp _ hstop _ ih =>
      intro u hu hne
      rcases List.mem_cons.1 hu with rfl | hu
      · refine ⟨lexeme, ⟨before ++ gap, rest, by simp, ?_, ?_⟩, hsp⟩
        · rw [byteLength_append, hb]
        · rw [byteLength_append, byteLength_append, hb, hstop]
      · have htext : before ++ (gap ++ lexeme ++ rest) = (before ++ gap ++ lexeme) ++ rest := by
          simp
        rw [htext]
        exact ih (before ++ gap ++ lexeme) (by
          rw [byteLength_append, byteLength_append, hb, hstop]) u hu hne

/-- The end stands at the end of the text. -/
theorem eof_span (h : Tiling glued offset cs ts) {t : Spanned} (ht : t ∈ ts)
    (he : t.token = .eof) : t.span = .point (offset + byteLength cs) := by
  obtain ⟨body, rfl, hbody⟩ := h.ends
  rcases List.mem_append.1 ht with ht | ht
  · exact absurd he (hbody t ht).1
  · rw [List.mem_singleton.1 ht]

/-- **The span of every token fits the text.** -/
theorem fits (h : Tiling false 0 cs ts) : ∀ t ∈ ts, t.span.Fits cs := by
  intro t ht
  by_cases he : t.token = .eof
  · rw [h.eof_span ht he, Nat.zero_add]
    exact fits_point (charBoundary_byteLength cs)
  · obtain ⟨part, hs, -⟩ := h.spelled [] rfl t ht he
    exact hs.fits

end Tiling

/-- Before each token stands a gap, from where the token before it stops. -/
def GapsFit (text : List Char) : (stop : Nat) → (glued : Bool) → List Spanned → Prop
  | _, _, [] => True
  | stop, glued, t :: ts =>
      (∃ gap, Slice text ⟨stop, t.span.start⟩ gap ∧ Gap glued (t.token == .eof) gap) ∧
        GapsFit text t.span.stop t.token.isName ts

theorem Tiling.gapsFit {glued : Bool} {offset : Nat} {cs : List Char} {ts : List Spanned}
    (h : Tiling glued offset cs ts) (before : List Char) (hb : byteLength before = offset) :
    GapsFit (before ++ cs) offset glued ts := by
  induction h generalizing before with
  | @stop _ offset gap hgap =>
      refine ⟨⟨gap, ⟨before, [], by simp, hb.symm, ?_⟩, hgap⟩, trivial⟩
      rw [byteLength_append, hb]
      rfl
  | @token _ offset stop gap lexeme rest t ts hgap _ _ ht hstop _ ih =>
      have htext : before ++ (gap ++ lexeme ++ rest) = (before ++ gap ++ lexeme) ++ rest := by simp
      refine ⟨⟨gap, ⟨before, lexeme ++ rest, by simp, hb.symm, ?_⟩, ?_⟩, ?_⟩
      · rw [byteLength_append, hb]
      · rwa [beq_eq_false_iff_ne.2 ht]
      · rw [htext]
        refine ih _ ?_
        rw [byteLength_append, byteLength_append, hb, hstop]

end BisayaLang
