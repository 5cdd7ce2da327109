/-
**Texts and their tokens.**

Which tokens a text has does not depend on where it stands: it depends on the characters, and on whether
a name ends right before them, because `--` behind a name is a step and else a comment.  `Lexes` says so
as a relation, with one rule for the end of the text and one for a token, and whatever holds of all
tokens that are ever read is shown by induction on it.

Main definitions:

* `BisayaLang.nextText` — the text from the next token on;
* `BisayaLang.Lexes` — the text has exactly these tokens, the end included.

Main results:

* `BisayaLang.scan_eq_ok_iff` — **the scanner reads a text exactly when it has tokens**, and reads those;
* `BisayaLang.parseProgram_eq_ok` — a program is read from a text by its tokens.
-/

import BisayaLang.Grammar.Program

set_option relaxedAutoImplicit false
set_option autoImplicit false

namespace BisayaLang

open Text

/-! ### Blanks and comments -/

/-- The text behind blanks and comments.  The flag says that the characters belong to a comment. -/
def afterTrivia : (comment : Bool) → List Char → List Char
  | _, [] => []
  | true, c :: cs => afterTrivia (c != '\n') cs
  | false, c :: cs =>
      if isSpace c then afterTrivia false cs
      else if c = '-' ∧ cs.head? = some '-' then afterTrivia true cs
      else c :: cs

theorem skipTrivia_snd (comment : Bool) (offset : Nat) (cs : List Char) :
    (Scanner.skipTrivia comment offset cs).2 = afterTrivia comment cs := by
  induction cs generalizing comment offset with
  | nil => cases comment <;> rfl
  | cons c cs ih =>
      cases comment with
      | true => exact ih _ _
      | false =>
          simp only [Scanner.skipTrivia, afterTrivia]
          split
          · exact ih _ _
          · split
            · exact ih _ _
            · rfl

/-- A step of a loop stands right here. -/
def decrementAhead (glued : Bool) (cs : List Char) : Bool :=
  glued && cs.head? == some '-' && cs.tail.head? == some '-'

/-- The text from the next token on. -/
def nextText (glued : Bool) (cs : List Char) : List Char :=
  if decrementAhead glued cs then cs else afterTrivia false cs

theorem Scanner.skip_snd (s : Scanner) : s.skip.2 = nextText s.glued s.rest := by
  unfold Scanner.skip nextText
  show (if decrementAhead s.glued s.rest then (s.offset, s.rest)
    else skipTrivia false s.offset s.rest).2 = _
  split
  · rfl
  · exact skipTrivia_snd ..

/-! ### The tokens of a text -/

/-- The text has exactly these tokens, the end included.  The flag says that a name ends right before
it. -/
inductive Lexes : (glued : Bool) → List Char → List Token → Prop
  | stop {glued : Bool} {cs : List Char} : nextText glued cs = [] → Lexes glued cs [.eof]
  | token {glued : Bool} {cs : List Char} {t : Token} {n : Nat} {ts : List Token} :
      nextText glued cs ≠ [] →
      Token.recognise (decrementAhead glued cs) (nextText glued cs) = .token t n →
      Lexes t.isName ((nextText glued cs).drop n) ts → Lexes glued cs (t :: ts)

theorem ofWord_ne_eof (word : String) : Token.ofWord word ≠ .eof := by
  unfold Token.ofWord Token.ofWord?
  split <;> simp

/-- A symbol is an operator, a step or punctuation. -/
theorem symbol?_kind {glued : Bool} {c : Char} {d : Option Char} {t : Token} {n : Nat}
    (h : Token.symbol? glued c d = some (t, n)) :
    (∃ o, t = .op o) ∨ (∃ s, t = .step s) ∨ ∃ m, t = .mark m := by
  unfold Token.symbol? at h
  split at h <;> first | (split at h <;> simp at h) | simp at h
  all_goals
      obtain ⟨rfl, rfl⟩ := h
      simp

/-- Whether a name ends right before matters only to the step of a loop. -/
theorem symbol?_glued {glued glued' : Bool} {c : Char} {d : Option Char}
    (h : c = '-' → d = some '-' → glued = glued') :
    Token.symbol? glued c d = Token.symbol? glued' c d := by
  unfold Token.symbol?
  split <;> simp_all

theorem recognise_glued {glued glued' : Bool} {cs : List Char}
    (h : ['-', '-'] <+: cs → glued = glued') :
    Token.recognise glued cs = Token.recognise glued' cs := by
  cases cs with
  | nil => rfl
  | cons c cs =>
      have hsymbol : Token.symbol? glued c cs.head? = Token.symbol? glued' c cs.head? := by
        refine symbol?_glued ?_
        rintro rfl hhead
        obtain ⟨rest, rfl⟩ := List.head?_eq_some_iff.1 hhead
        exact h ⟨rest, rfl⟩
      rw [Token.recognise, Token.recognise, hsymbol]

/-- Where there is text, the next token is not the end. -/
theorem recognise_ne_eof {glued : Bool} {cs : List Char} {t : Token} {n : Nat} (hne : cs ≠ [])
    (h : Token.recognise glued cs = .token t n) : t ≠ .eof := by
  obtain ⟨c, cs, rfl⟩ := List.exists_cons_of_ne_nil hne
  simp only [Token.recognise] at h
  split at h
  · unfold Token.readString at h
    split at h <;> cases h
    simp
  split at h
  · unfold Token.readCharacter at h
    split at h
    · cases h
    · cases h
    · split at h <;> cases h
      simp
  split at h
  · unfold Token.readNumber at h
    split at h
    · split at h <;> cases h <;> simp
    · cases h
      simp
  split at h
  · cases h
    exact ofWord_ne_eof _
  · split at h
    · rename_i hsym
      cases h
      rcases symbol?_kind hsym with ⟨_, rfl⟩ | ⟨_, rfl⟩ | ⟨_, rfl⟩ <;> simp
    · cases h

/-- The end is the last token of a text. -/
theorem Lexes.eq_nil_of_eof {glued : Bool} {cs : List Char} {ts us : List Token}
    (h : Lexes glued cs (ts ++ .eof :: us)) : us = [] := by
  generalize hts : ts ++ .eof :: us = all at h
  induction h generalizing ts with
  | stop _ =>
      cases ts with
      | nil => exact (List.cons.inj hts).2
      | cons t ts => exact absurd (List.cons.inj hts).2 (by simp)
  | token hne hrec _ ih =>
      cases ts with
      | nil => exact absurd (List.cons.inj hts).1.symm (recognise_ne_eof hne hrec)
      | cons t ts => exact ih (List.cons.inj hts).2

/-! ### The scanner -/

theorem Scanner.next_of_token {s : Scanner} {t : Token} {n : Nat}
    (h : Token.recognise (decrementAhead s.glued s.rest) (nextText s.glued s.rest) = .token t n) :
    ∃ span offset, s.next =
      (.ok ⟨span, t⟩, ⟨(nextText s.glued s.rest).drop n, offset, t.isName⟩) := by
  have hs := s.skip_snd
  unfold Scanner.next
  revert hs
  rcases s.skip with ⟨offset, text⟩
  rintro rfl
  change Token.recognise s.atDecrement _ = _ at h
  simp only [h]
  rw [← advance_snd n offset]
  exact ⟨_, _, rfl⟩

theorem Scanner.next_of_fault {s : Scanner} {f : LexFault} {reported consumed : Nat}
    (h : Token.recognise (decrementAhead s.glued s.rest) (nextText s.glued s.rest) =
      .fault f reported consumed) : ∃ e s', s.next = (.error e, s') := by
  have hs := s.skip_snd
  unfold Scanner.next
  revert hs
  rcases s.skip with ⟨offset, text⟩
  rintro rfl
  change Token.recognise s.atDecrement _ = _ at h
  simp only [h]
  exact ⟨_, _, rfl⟩

/-- One step of the scanner that finds a token. -/
theorem Scanner.scan_of_next {s s' : Scanner} {t : Spanned} (h : s.next = (.ok t, s')) :
    s.scan = if t.token = .eof then ⟨[t], none, s'⟩
      else { s'.scan with tokens := t :: s'.scan.tokens } := by
  rw [Scanner.scan]
  split
  · rename_i h'
    rw [h] at h'
    cases h'
  · rename_i h'
    rw [h] at h'
    cases h'
    split <;> rfl

theorem Scanner.scan_of_fault {s s' : Scanner} {e : LexError} (h : s.next = (.error e, s')) :
    s.scan = ⟨[], some e, s'⟩ := by
  rw [Scanner.scan]
  split
  · rename_i h'
    rw [h] at h'
    cases h'
    rfl
  · rename_i h'
    rw [h] at h'
    cases h'

/-- What the scanner reads without an error are the tokens of the text.  Every token takes characters,
so that the induction is on how many are left. -/
theorem lexes_of_scan (n : Nat) : ∀ s : Scanner, s.rest.length < n → s.scan.error = none →
    Lexes s.glued s.rest (s.scan.tokens.map Spanned.token) := by
  induction n with
  | zero => exact fun s hs => absurd hs (by omega)
  | succ n ih =>
      intro s hs herr
      by_cases hne : nextText s.glued s.rest = []
      · have hrec : Token.recognise (decrementAhead s.glued s.rest) (nextText s.glued s.rest) =
            .token .eof 0 := by rw [hne]; rfl
        obtain ⟨span, offset, hnext⟩ := Scanner.next_of_token hrec
        rw [Scanner.scan_of_next hnext]
        exact .stop hne
      · cases hrec : Token.recognise (decrementAhead s.glued s.rest) (nextText s.glued s.rest) with
        | fault f reported consumed =>
            obtain ⟨e, s', hnext⟩ := Scanner.next_of_fault hrec
            rw [Scanner.scan_of_fault hnext] at herr
            exact absurd herr (by simp)
        | token t k =>
            have ht := recognise_ne_eof hne hrec
            obtain ⟨span, offset, hnext⟩ := Scanner.next_of_token hrec
            have hlen := Scanner.next_length_lt hnext ht
            rw [Scanner.scan_of_next hnext, if_neg ht] at herr ⊢
            exact .token hne hrec (ih _ (by omega) herr)

/-- The tokens of a text are what the scanner reads, wherever the text stands. -/
theorem Lexes.scan {glued : Bool} {cs : List Char} {ts : List Token} (h : Lexes glued cs ts) :
    ∀ offset, (Scanner.scan ⟨cs, offset, glued⟩).error = none ∧
      (Scanner.scan ⟨cs, offset, glued⟩).tokens.map Spanned.token = ts := by
  induction h with
  | @stop glued cs hne =>
      intro offset
      have hrec : Token.recognise (decrementAhead glued cs) (nextText glued cs) = .token .eof 0 := by
        rw [hne]
        rfl
      obtain ⟨span, stop, hnext⟩ := Scanner.next_of_token (s := ⟨cs, offset, glued⟩) hrec
      rw [Scanner.scan_of_next hnext]
      exact ⟨rfl, rfl⟩
  | @token glued cs t n ts hne hrec _ ih =>
      intro offset
      obtain ⟨span, stop, hnext⟩ := Scanner.next_of_token (s := ⟨cs, offset, glued⟩) hrec
      rw [Scanner.scan_of_next hnext, if_neg (recognise_ne_eof hne hrec)]
      exact ⟨(ih stop).1, by rw [List.map_cons, (ih stop).2]⟩

/-- **The scanner reads a text exactly when it has tokens**, and reads those. -/
theorem scan_eq_ok_iff {cs : List Char} {ts : List Token} :
    (∃ tokens, (Scanner.start cs).scan.result = .ok tokens ∧ tokens.map Spanned.token = ts) ↔
      Lexes false cs ts := by
  constructor
  · rintro ⟨tokens, hok, rfl⟩
    unfold Scan.result at hok
    split at hok
    · rename_i herr
      cases hok
      exact lexes_of_scan _ (.start cs) (Nat.lt_succ_self _) herr
    · cases hok
  · intro h
    obtain ⟨herr, hts⟩ := h.scan 0
    refine ⟨_, ?_, hts⟩
    unfold Scan.result Scanner.start
    rw [herr]

theorem parseProgram_eq_ok {text : String} {p : Parsed} :
    parseProgram text = .ok p ↔ ∃ tokens, (Scanner.start text.toList).scan.result = .ok tokens ∧
      parseTokens tokens = .ok p := by
  unfold parseProgram Scan.parse
  cases (Scanner.start text.toList).scan.result <;> simp

end BisayaLang
