/-
**Texts put together from pieces.**

A canonical text is put together from blanks and the spellings of single tokens.  Here such texts are
read back, whatever tree they come from: if no piece runs into the next one, the tokens of the text are
those of its pieces.

Two things can go wrong.  A minus right before another minus starts a comment.  And a text that consists
of a double quote cannot be written in double quotes.  What is lost then is found by counting: a comment
takes minus signs away from the tokens, and a quote too many has no token that it could belong to.

Main definitions:

* `BisayaLang.Piece`, `BisayaLang.textOf`, `BisayaLang.tokensOf` — pieces, their text and their tokens;
* `BisayaLang.Loose` — no piece runs into the next one, but for a minus;
* `BisayaLang.doubled` — a minus stands right before another one.

Main results:

* `BisayaLang.lexes_piece` — the text of a piece is read as its tokens;
* `BisayaLang.lexes_pieces` — **a text of pieces has the tokens of the pieces**, if no minus is doubled;
* `BisayaLang.dashes_lt_of_doubled` — where a minus is doubled, minus signs are lost.
-/

import BisayaLang.Proofs.Token.Recognition

set_option relaxedAutoImplicit false
set_option autoImplicit false

namespace BisayaLang

open Text

/-! ### Pieces -/

/-- A part of a canonical text. -/
inductive Piece where
  /-- a space or the end of a line -/
  | blank (c : Char)
  /-- a token as it is spelled -/
  | plain (t : Token)
  /-- a text in double quotes -/
  | quoted (content : String)
  /-- a double quote in single quotes -/
  | quote
  /-- the counter of a loop with its step -/
  | counter (name : String) (step : Step)

/-- The minus sign. -/
def Token.minus : Token := .op (.arithmetic .sub)

namespace Piece

/-- The characters of a piece. -/
def chars : Piece → List Char
  | .blank c => [c]
  | .plain t => t.literal.toList
  | .quoted content => '"' :: (content.toList ++ ['"'])
  | .quote => ['\'', '"', '\'']
  | .counter name step => name.toList ++ step.spelling.toList

/-- The tokens of a piece. -/
def tokens : Piece → List Token
  | .blank _ => []
  | .plain t => [t]
  | .quoted content => [.text content]
  | .quote => [.text "\""]
  | .counter name step => [.name name, .step step]

/-- The piece is made of tokens that can be spelled. -/
def Good : Piece → Prop
  | .blank c => c = ' ' ∨ c = '\n'
  | .plain t => t.isPlain = true ∧ t.Spellable
  | .quoted content => (Token.text content).Spellable
  | .quote => True
  | .counter name _ => (Token.name name).Spellable

/-- The piece does not run into the text behind it.  What a minus does there is another matter. -/
def Before (cs : List Char) : Piece → Prop
  | .plain t => t = .minus ∨ t = .mark .lparen ∨ Separated cs
  | _ => True

/-- A name ends where the piece does. -/
def glues : Piece → Bool
  | .plain t => t.isName
  | _ => false

/-- The piece is a minus sign. -/
def isMinus : Piece → Bool
  | .plain t => t = .minus
  | _ => false

end Piece

/-- The text of pieces. -/
def textOf (ps : List Piece) : List Char := ps.flatMap Piece.chars

/-- The tokens of pieces. -/
def tokensOf (ps : List Piece) : List Token := ps.flatMap Piece.tokens

/-- No piece runs into the next one, but for a minus. -/
def Loose : List Piece → Prop
  | [] => True
  | p :: ps => p.Good ∧ p.Before (textOf ps) ∧ Loose ps

/-- A minus stands right before another one. -/
def doubled : List Piece → Bool
  | [] => false
  | p :: ps => (p.isMinus && (textOf ps).head? == some '-') || doubled ps

@[simp] theorem textOf_nil : textOf [] = [] := rfl

@[simp] theorem textOf_cons (p : Piece) (ps : List Piece) : textOf (p :: ps) = p.chars ++ textOf ps :=
  List.flatMap_cons

@[simp] theorem textOf_append (ps qs : List Piece) : textOf (ps ++ qs) = textOf ps ++ textOf qs :=
  List.flatMap_append

@[simp] theorem tokensOf_nil : tokensOf [] = [] := rfl

@[simp] theorem tokensOf_cons (p : Piece) (ps : List Piece) :
    tokensOf (p :: ps) = p.tokens ++ tokensOf ps := List.flatMap_cons

@[simp] theorem tokensOf_append (ps qs : List Piece) :
    tokensOf (ps ++ qs) = tokensOf ps ++ tokensOf qs := List.flatMap_append

/-! ### Counting -/

theorem Piece.dashes_eq {p : Piece} (h : p.Good) : p.chars.count '-' = dashes p.tokens := by
  cases p with
  | blank c => rcases h with rfl | rfl <;> rfl
  | plain t => simp [chars, tokens, dashes, tally, Token.dashes]
  | quoted content => simp [chars, tokens, dashes, tally, Token.dashes, Token.literal]
  | quote => rfl
  | counter name step => simp [chars, tokens, dashes, tally, Token.dashes, Token.literal]

/-- A text of pieces has the minus signs of its tokens. -/
theorem dashes_tokensOf {ps : List Piece} (h : Loose ps) :
    (textOf ps).count '-' = dashes (tokensOf ps) := by
  induction ps with
  | nil => rfl
  | cons p ps ih =>
      obtain ⟨hp, -, hps⟩ := h
      rw [textOf_cons, tokensOf_cons, List.count_append, dashes_append, Piece.dashes_eq hp,
        ih hps]

theorem quotes_of_isPlain {t : Token} (h : t.isPlain = true) : t.quotes = 0 := by
  cases t with
  | text _ => cases h
  | _ => rfl

theorem Piece.quotes_le {p : Piece} (h : p.Good) :
    quotes p.tokens ≤ p.chars.countP isDoubleQuote := by
  cases p with
  | blank c => exact Nat.zero_le _
  | plain t => simp [tokens, quotes, tally, quotes_of_isPlain h.1]
  | quoted content =>
      have hq : (Token.text content).quotes ≤ 2 := by
        rw [Token.quotes]
        split <;> decide
      have hc : 2 ≤ (chars (.quoted content)).countP isDoubleQuote := by
        rw [chars, List.countP_cons_of_pos (by decide), List.countP_append,
          List.countP_cons_of_pos (by decide)]
        omega
      simp only [tokens, quotes, tally]
      omega
  | quote => decide
  | counter name step => exact Nat.zero_le _

theorem quotes_tokensOf {ps : List Piece} (h : Loose ps) :
    quotes (tokensOf ps) ≤ (textOf ps).countP isDoubleQuote := by
  induction ps with
  | nil => exact Nat.le_refl 0
  | cons p ps ih =>
      obtain ⟨hp, -, hps⟩ := h
      have h₁ := Piece.quotes_le hp
      have h₂ := ih hps
      rw [textOf_cons, tokensOf_cons, List.countP_append, quotes_append]
      omega

/-- A double quote in double quotes is one quote more than its token can be written with. -/
theorem quotes_lt_of_mem {ps : List Piece} (h : Loose ps) (hmem : Piece.quoted "\"" ∈ ps) :
    quotes (tokensOf ps) < (textOf ps).countP isDoubleQuote := by
  induction ps with
  | nil => exact absurd hmem (by simp)
  | cons p ps ih =>
      obtain ⟨hp, -, hps⟩ := h
      rw [textOf_cons, tokensOf_cons, List.countP_append, quotes_append]
      rcases List.mem_cons.1 hmem with rfl | hmem
      · have h₁ : quotes (Piece.quoted "\"").tokens = 1 := rfl
        have h₂ : (Piece.quoted "\"").chars.countP isDoubleQuote = 3 := by decide
        have h₃ := quotes_tokensOf hps
        omega
      · have h₁ := Piece.quotes_le hp
        have h₂ := ih hps hmem
        omega

/-! ### Reading a piece -/

/-- A token right at the head of the text is the first of its tokens. -/
theorem lexes_iff_of_recognise {glued : Bool} {cs : List Char} {t : Token} {n : Nat}
    (hne : cs ≠ []) (hnext : nextText glued cs = cs)
    (hrec : Token.recognise (decrementAhead glued cs) cs = .token t n) {ts : List Token} :
    Lexes glued cs ts ↔ ∃ ts', ts = t :: ts' ∧ Lexes t.isName (cs.drop n) ts' := by
  constructor
  · intro h
    cases h with
    | stop hstop => exact absurd (hnext ▸ hstop) hne
    | token _ hrec' hrest =>
        rw [hnext] at hrec' hrest
        rw [hrec] at hrec'
        cases hrec'
        exact ⟨_, rfl, hrest⟩
  · rintro ⟨ts', rfl, hrest⟩
    refine .token (by rw [hnext]; exact hne) (by rw [hnext]; exact hrec) ?_
    rw [hnext]
    exact hrest

/-- Neither blanks nor a comment nor a step stand at the head of the text. -/
theorem nextText_of_head {c : Char} {cs : List Char} (hs : isSpace c = false)
    (hd : c = '-' → cs.head? ≠ some '-') (glued : Bool) :
    nextText glued (c :: cs) = c :: cs ∧ decrementAhead glued (c :: cs) = false := by
  have hdec : decrementAhead glued (c :: cs) = false := by
    cases glued with
    | false => rfl
    | true =>
        by_cases hc : c = '-'
        · simp [decrementAhead, hc, hd hc]
        · simp [decrementAhead, hc]
  refine ⟨?_, hdec⟩
  rw [nextText, hdec, if_neg Bool.false_ne_true, afterTrivia, if_neg (by simp [hs]),
    if_neg fun h => hd h.1 h.2]

/-- Characters that are recognised where they stand are read as one token. -/
theorem lexes_run {c : Char} {w cs : List Char} {t : Token} (hs : isSpace c = false)
    (hd : c = '-' → (w ++ cs).head? ≠ some '-')
    (hrec : Token.recognise false (c :: w ++ cs) = .token t (c :: w).length) (glued : Bool)
    {ts : List Token} :
    Lexes glued (c :: w ++ cs) ts ↔ ∃ ts', ts = t :: ts' ∧ Lexes t.isName cs ts' := by
  obtain ⟨hnext, hdec⟩ := nextText_of_head hs hd glued
  rw [← List.cons_append] at hnext hdec
  rw [lexes_iff_of_recognise (by simp) hnext (by rw [hdec]; exact hrec)]
  rw [List.drop_left]

theorem lexes_blank {c : Char} (hs : isSpace c = true) (glued : Bool) {cs : List Char}
    {ts : List Token} : Lexes glued (c :: cs) ts ↔ Lexes false cs ts := by
  have hdec : decrementAhead glued (c :: cs) = decrementAhead false cs := by
    have hc : c ≠ '-' := by
      rintro rfl
      cases hs
    cases glued <;> simp [decrementAhead, hc]
  have hnext : nextText glued (c :: cs) = nextText false cs := by
    rw [nextText, hdec, nextText]
    show afterTrivia false (c :: cs) = afterTrivia false cs
    rw [afterTrivia, if_pos hs]
  constructor
  · intro h
    cases h with
    | stop hstop => exact .stop (hnext ▸ hstop)
    | token hne hrec hrest =>
        rw [hnext] at hne hrec hrest
        exact .token hne (hdec ▸ hrec) hrest
  · intro h
    cases h with
    | stop hstop => exact .stop (hnext ▸ hstop)
    | token hne hrec hrest =>
        refine .token (hnext ▸ hne) (by rw [hdec, hnext]; exact hrec) ?_
        rw [hnext]
        exact hrest

theorem recognise_minus {cs : List Char} (h : cs.head? ≠ some '-') :
    Token.recognise false ('-' :: cs) = .token .minus 1 := by
  refine recognise_symbol (by decide) ?_
  unfold Token.symbol?
  split <;> simp_all [Token.minus]

theorem recognise_lparen (cs : List Char) :
    Token.recognise false ('(' :: cs) = .token (.mark .lparen) 1 := by
  refine recognise_symbol (by decide) ?_
  unfold Token.symbol?
  split <;> simp_all

/-- A token that is not quoted is read where it is recognised, unless it is a minus before another one. -/
theorem lexes_of_recognise {t : Token} (hp : t.isPlain = true) (hs : t.Spellable) {cs : List Char}
    (hrec : Token.recognise false (t.literal.toList ++ cs) = .token t t.literal.toList.length)
    (hm : t = .minus → cs.head? ≠ some '-') (glued : Bool) {ts : List Token} :
    Lexes glued (t.literal.toList ++ cs) ts ↔ ∃ ts', ts = t :: ts' ∧ Lexes t.isName cs ts' := by
  obtain ⟨c, w, hcw, hspace, hdash⟩ := literal_of_isPlain hp hs
  rw [hcw] at hrec ⊢
  refine lexes_run hspace (fun hc => ?_) hrec glued
  -- only the minus itself starts with a minus sign, and it has no more characters
  have ht := hdash hc
  subst ht
  cases hcw
  exact hm rfl

theorem lexes_plain {t : Token} (hp : (Piece.plain t).Good) {cs : List Char}
    (hb : (Piece.plain t).Before cs) (hm : t = .minus → cs.head? ≠ some '-') (glued : Bool)
    {ts : List Token} : Lexes glued (t.literal.toList ++ cs) ts ↔
      ∃ ts', ts = t :: ts' ∧ Lexes t.isName cs ts' := by
  refine lexes_of_recognise hp.1 hp.2 ?_ hm glued
  rcases hb with rfl | rfl | hsep
  · exact recognise_minus (hm rfl)
  · exact recognise_lparen cs
  · exact recognise_plain hp.1 hp.2 (hsep.endsRun (by decide +kernel))

theorem lexes_quoted {content : String} (hs : (Token.text content).Spellable)
    (hne : content ≠ "\"") (glued : Bool) {cs : List Char} {ts : List Token} :
    Lexes glued ((Piece.quoted content).chars ++ cs) ts ↔
      ∃ ts', ts = .text content :: ts' ∧ Lexes false cs ts' := by
  have hq : '"' ∉ content.toList := fun h => hne (hs.2 h)
  refine lexes_run (by decide) (fun h => absurd h (by decide)) ?_ glued
  have hrec := recognise_quoted false cs hs.1 hq
  simp only [List.cons_append, List.append_assoc, List.nil_append, List.length_cons,
    List.length_append, List.length_nil] at hrec ⊢
  exact hrec

theorem lexes_step (step : Step) {cs : List Char} {ts : List Token} :
    Lexes true (step.spelling.toList ++ cs) ts ↔ ∃ ts', ts = .step step :: ts' ∧ Lexes false cs ts' := by
  cases step with
  | increment => exact lexes_run (by decide) (fun h => absurd h (by decide)) rfl true
  | decrement =>
      have hrec : Token.recognise (decrementAhead true ('-' :: '-' :: cs)) ('-' :: '-' :: cs) =
          .token (.step .decrement) 2 := rfl
      exact lexes_iff_of_recognise (List.cons_ne_nil _ _) rfl hrec

theorem lexes_counter {name : String} (hs : (Token.name name).Spellable) (step : Step)
    (glued : Bool) {cs : List Char} {ts : List Token} :
    Lexes glued ((Piece.counter name step).chars ++ cs) ts ↔
      ∃ ts', ts = .name name :: .step step :: ts' ∧ Lexes false cs ts' := by
  have hend : EndsRun continuesName (step.spelling.toList ++ cs) := by
    intro d hd
    cases step <;> cases hd <;> decide
  have hchars : (Piece.counter name step).chars ++ cs =
      (Token.name name).literal.toList ++ (step.spelling.toList ++ cs) := List.append_assoc ..
  rw [hchars, lexes_of_recognise (by rfl) hs (recognise_name hs hend) (by simp [Token.minus])]
  constructor
  · rintro ⟨ts', rfl, h⟩
    obtain ⟨ts'', rfl, h'⟩ := (lexes_step step).1 h
    exact ⟨ts'', rfl, h'⟩
  · rintro ⟨ts', rfl, h⟩
    exact ⟨_, rfl, (lexes_step step).2 ⟨ts', rfl, h⟩⟩

/-- **The text of a piece is read as its tokens**, whatever stands before it, if it does not run into
the text behind it. -/
theorem lexes_piece {p : Piece} (hp : p.Good) (hq : p ≠ .quoted "\"") {cs : List Char}
    (hb : p.Before cs) (hm : p.isMinus = true → cs.head? ≠ some '-') (glued : Bool)
    {ts : List Token} :
    Lexes glued (p.chars ++ cs) ts ↔ ∃ ts', ts = p.tokens ++ ts' ∧ Lexes p.glues cs ts' := by
  cases p with
  | blank c =>
      have hs : isSpace c = true := by rcases hp with rfl | rfl <;> rfl
      show Lexes glued (c :: cs) ts ↔ ∃ ts', ts = ts' ∧ Lexes false cs ts'
      rw [lexes_blank hs]
      exact ⟨fun h => ⟨ts, rfl, h⟩, fun ⟨_, heq, h⟩ => heq ▸ h⟩
  | plain t => exact lexes_plain hp hb (fun h => hm (by simp [Piece.isMinus, h])) glued
  | quoted content => exact lexes_quoted hp (fun h => hq (by rw [h])) glued
  | quote =>
      exact lexes_run (by decide) (fun h => absurd h (by decide)) (recognise_quote false cs) glued
  | counter name step => exact lexes_counter hp step glued

/-! ### Reading several pieces -/

/-- **A text of pieces has the tokens of the pieces**, if no minus is doubled. -/
theorem lexes_pieces {ps : List Piece} (h : Loose ps) (hq : Piece.quoted "\"" ∉ ps)
    (hd : doubled ps = false) (glued : Bool) :
    Lexes glued (textOf ps) (tokensOf ps ++ [.eof]) := by
  induction ps generalizing glued with
  | nil =>
      refine .stop ?_
      cases glued <;> rfl
  | cons p ps ih =>
      obtain ⟨hp, hb, hps⟩ := h
      simp only [doubled, Bool.or_eq_false_iff, Bool.and_eq_false_iff, beq_eq_false_iff_ne] at hd
      have hm : p.isMinus = true → (textOf ps).head? ≠ some '-' := by
        intro hm
        rcases hd.1 with hd | hd
        · rw [hd] at hm
          cases hm
        · exact hd
      have hne : p ≠ .quoted "\"" := fun heq => hq (by rw [heq]; simp)
      rw [textOf_cons, tokensOf_cons, List.append_assoc]
      exact (lexes_piece hp hne hb hm glued).2
        ⟨_, rfl, ih hps (fun hmem => hq (by simp [hmem])) hd.2 p.glues⟩

/-- Behind a name stands a separator. -/
theorem Piece.head?_of_glues {p : Piece} (h : p.glues = true) {cs : List Char} (hb : p.Before cs) :
    cs.head? ≠ some '-' := by
  cases p with
  | plain t =>
      rcases hb with rfl | rfl | hsep
      · cases h
      · cases h
      · exact fun hc => absurd (hsep '-' hc) (by decide)
  | _ => cases h

/-- A comment takes minus signs with it. -/
theorem dashes_lt_of_comment {cs : List Char} {ts : List Token}
    (h : Lexes false ('-' :: '-' :: cs) ts) : dashes ts < ('-' :: '-' :: cs).count '-' := by
  have hle := h.dashes_le
  have hnext : nextText false ('-' :: '-' :: cs) = afterTrivia true ('-' :: cs) := by
    rfl
  obtain ⟨skipped, hs, -⟩ := afterTrivia_eq true ('-' :: cs)
  have hcount := congrArg (List.count '-') hs
  rw [List.count_append] at hcount
  rw [hnext] at hle
  rw [List.count_cons_self]
  omega

/-- Where a minus is doubled, minus signs are lost, whatever tokens the text has. -/
theorem dashes_lt_of_doubled {ps : List Piece} (h : Loose ps) (hq : Piece.quoted "\"" ∉ ps)
    (hd : doubled ps = true) {glued : Bool} (hg : glued = true → (textOf ps).head? ≠ some '-')
    {ts : List Token} (hts : Lexes glued (textOf ps) ts) :
    dashes ts < (textOf ps).count '-' := by
  induction ps generalizing glued ts with
  | nil => cases hd
  | cons p ps ih =>
      obtain ⟨hp, hb, hps⟩ := h
      by_cases hm : p.isMinus = true ∧ (textOf ps).head? = some '-'
      · obtain ⟨t, rfl⟩ : ∃ t, p = .plain t := by
          cases p with
          | plain t => exact ⟨t, rfl⟩
          | _ => exact absurd hm.1 (by simp [Piece.isMinus])
        have ht : t = .minus := by simpa [Piece.isMinus] using hm.1
        obtain ⟨cs, hcs⟩ : ∃ cs, textOf ps = '-' :: cs := List.head?_eq_some_iff.1 hm.2
        have htext : textOf (.plain t :: ps) = '-' :: '-' :: cs := by
          rw [textOf_cons, hcs, ht]
          rfl
        rw [htext] at hts hg ⊢
        -- behind a name the two would be a step, but no text of pieces starts so behind a name
        cases glued with
        | true => exact absurd rfl (hg rfl)
        | false => exact dashes_lt_of_comment hts
      · have hne : p ≠ .quoted "\"" := fun heq => hq (by rw [heq]; simp)
        have hrest : doubled ps = true := by
          rw [doubled, Bool.or_eq_true] at hd
          rcases hd with hd | hd
          · exact absurd (by simpa using hd) hm
          · exact hd
        rw [textOf_cons] at hts ⊢
        obtain ⟨ts', rfl, hts'⟩ :=
          (lexes_piece hp hne hb (fun h₁ h₂ => hm ⟨h₁, h₂⟩) glued).1 hts
        have hlt := ih hps (fun hmem => hq (by simp [hmem])) hrest
          (fun hglues => Piece.head?_of_glues hglues hb) hts'
        rw [List.count_append, dashes_append, Piece.dashes_eq hp]
        omega

end BisayaLang
