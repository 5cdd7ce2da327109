/-
**What was read before a fault.**

A fault says nothing about the text before it: cut off where the fault starts, the text can be read, and
has the tokens that were read before the fault, and no others.  The reason is that no token depends on
what stands behind its characters, but for the fact that they end there, and the end of the text ends
them as well.

Main definitions:

* `BisayaLang.Tiled` — the spans of tokens tile a text.

Main results:

* `BisayaLang.recognise_of_front` — a token is recognised in every front part of the text that has all
  of its characters;
* `BisayaLang.Scanner.scan_before_fault` — **the text before a fault has the tokens read before it**;
* `BisayaLang.tokenize_tiles` — tokens tile the text, and a fault leaves those before it as they are.
-/

import BisayaLang.Proofs.Token.Tiling

set_option relaxedAutoImplicit false
set_option autoImplicit false

namespace BisayaLang

open Text

/-! ### Tokens of a front part -/

/-- A run of characters is the same in a front part that has all of it, and so is what follows up to
where the front part ends. -/
theorem takeWhile_of_front {p : Char → Bool} {front cs : List Char} (h : front <+: cs)
    (hlen : (cs.takeWhile p).length ≤ front.length) :
    front.takeWhile p = cs.takeWhile p ∧ front.dropWhile p <+: cs.dropWhile p := by
  induction cs generalizing front with
  | nil =>
      obtain rfl := List.prefix_nil.1 h
      exact ⟨rfl, List.prefix_refl _⟩
  | cons c cs ih =>
      cases front with
      | nil =>
          have hnil : (c :: cs).takeWhile p = [] := List.length_eq_zero_iff.1 (Nat.le_zero.1 hlen)
          exact ⟨hnil.symm, List.nil_prefix⟩
      | cons d front =>
          obtain ⟨rfl, hpre⟩ := List.cons_prefix_cons.1 h
          cases hd : p d with
          | true =>
              rw [List.takeWhile_cons_of_pos hd] at hlen
              obtain ⟨htake, hdrop⟩ := ih hpre (Nat.le_of_succ_le_succ hlen)
              rw [List.takeWhile_cons_of_pos hd, List.takeWhile_cons_of_pos hd, htake,
                List.dropWhile_cons_of_pos hd, List.dropWhile_cons_of_pos hd]
              exact ⟨rfl, hdrop⟩
          | false =>
              have hneg : ¬p d = true := by simp [hd]
              rw [List.takeWhile_cons_of_neg hneg, List.takeWhile_cons_of_neg hneg,
                List.dropWhile_cons_of_neg hneg, List.dropWhile_cons_of_neg hneg]
              exact ⟨rfl, h⟩

theorem length_takeWhile_add (p : Char → Bool) (cs : List Char) :
    (cs.takeWhile p).length + (cs.dropWhile p).length = cs.length := by
  rw [← List.length_append, List.takeWhile_append_dropWhile]

/-- A text that is known to have two characters more starts with the same two. -/
theorem prefix_two {front cs : List Char} {c d : Char} (h : front <+: c :: d :: cs)
    (hlen : 2 ≤ front.length) : ∃ rest, front = c :: d :: rest ∧ rest <+: cs := by
  match front, hlen, h with
  | _ :: _ :: rest, _, h =>
      obtain ⟨rfl, htail⟩ := List.cons_prefix_cons.1 h
      obtain ⟨rfl, hrest⟩ := List.cons_prefix_cons.1 htail
      exact ⟨rest, rfl, hrest⟩

theorem readNumber_of_front {front cs : List Char} {t : Token} {n : Nat}
    (h : Token.readNumber cs = .token t n) (hpre : front <+: cs) (hlen : n ≤ front.length) :
    Token.readNumber front = .token t n := by
  have hsum := length_takeWhile_add isDigit front
  unfold Token.readNumber at h ⊢
  split at h
  · rename_i d rest hdrop
    split at h
    · rename_i hd
      cases h
      obtain ⟨htake, hdw⟩ := takeWhile_of_front hpre (p := isDigit) (by omega)
      rw [htake] at hsum ⊢
      rw [List.takeWhile_cons_of_pos hd, List.length_cons] at hlen
      rw [hdrop] at hdw
      obtain ⟨rest', hfront, hpre'⟩ := prefix_two hdw (by omega)
      rw [hfront] at hsum ⊢
      simp only [List.length_cons] at hsum
      obtain ⟨hfraction, -⟩ := takeWhile_of_front (p := isDigit) hpre' (by omega)
      simp only [hd, if_true, List.takeWhile_cons_of_pos, hfraction]
    · rename_i hd
      cases h
      obtain ⟨htake, hdw⟩ := takeWhile_of_front hpre (p := isDigit) hlen
      rw [hdrop] at hdw
      rw [htake]
      split
      · rename_i d' rest' hfront
        rw [hfront] at hdw
        obtain ⟨-, hdw⟩ := List.cons_prefix_cons.1 hdw
        obtain ⟨rfl, -⟩ := List.cons_prefix_cons.1 hdw
        rw [if_neg hd]
      · rfl
  · rename_i hdrop
    cases h
    obtain ⟨htake, hdw⟩ := takeWhile_of_front hpre (p := isDigit) hlen
    rw [htake]
    split
    · rename_i d rest hfront
      rw [hfront] at hdw
      obtain ⟨later, hlater⟩ := hdw
      exact absurd hlater.symm (hdrop d (rest ++ later))
    · rfl

theorem readString_of_front {front cs : List Char} {t : Token} {n : Nat}
    (h : Token.readString cs = .token t n) (hpre : front <+: cs) (hlen : n ≤ front.length + 1) :
    Token.readString front = .token t n := by
  have hsum := length_takeWhile_add (fun c => foldQuote c != '"') front
  unfold Token.readString at h ⊢
  split at h
  · cases h
  · rename_i q rest hdrop
    cases h
    obtain ⟨htake, -⟩ := takeWhile_of_front hpre (p := fun c => foldQuote c != '"') (by omega)
    rw [htake] at hsum ⊢
    split
    · rename_i hnil
      rw [hnil, List.length_nil] at hsum
      omega
    · rfl

/-- A symbol of one character does not need another one behind it. -/
theorem symbol?_none {glued : Bool} {c : Char} {d : Option Char} {t : Token}
    (h : Token.symbol? glued c d = some (t, 1)) : Token.symbol? glued c none = some (t, 1) := by
  unfold Token.symbol? at h
  split at h <;> first | (split at h <;> simp at h) | simp at h
  all_goals
      subst h
      rfl

/-- Of two characters of a symbol the second stands behind the first. -/
theorem symbol?_le {glued : Bool} {c : Char} {d : Option Char} {t : Token} {n : Nat}
    (h : Token.symbol? glued c d = some (t, n)) : n ≤ 1 + d.toList.length := by
  unfold Token.symbol? at h
  split at h <;> first | (split at h <;> simp at h) | simp at h
  all_goals
      obtain ⟨-, rfl⟩ := h
      simp

/-- A token takes no more characters than there are. -/
theorem recognise_le {glued : Bool} {cs : List Char} {t : Token} {n : Nat}
    (h : Token.recognise glued cs = .token t n) : n ≤ cs.length := by
  cases cs with
  | nil =>
      cases h
      exact Nat.le_refl 0
  | cons c cs =>
      have hnumber := length_takeWhile_add isDigit (c :: cs)
      have hstring := length_takeWhile_add (fun c => foldQuote c != '"') cs
      have hword := length_takeWhile_add continuesName (c :: cs)
      simp only [Token.recognise] at h
      split at h
      · unfold Token.readString at h
        split at h
        · cases h
        · rename_i hdrop
          cases h
          rw [hdrop] at hstring
          simp only [List.length_cons] at hstring ⊢
          omega
      split at h
      · unfold Token.readCharacter at h
        split at h
        · cases h
        · cases h
        · split at h
          · cases h
            simp only [List.length_cons]
            omega
          · cases h
      split at h
      · unfold Token.readNumber at h
        split at h
        · rename_i d rest hdrop
          have hfraction := length_takeWhile_add isDigit (d :: rest)
          rw [hdrop] at hnumber
          simp only [List.length_cons] at hnumber hfraction
          split at h
          · cases h
            simp only [List.length_cons]
            omega
          · cases h
            simp only [List.length_cons]
            omega
        · cases h
          omega
      split at h
      · cases h
        omega
      · split at h
        · rename_i hsym
          cases h
          have hle := symbol?_le hsym
          cases cs with
          | nil => exact hle
          | cons d cs =>
              simp only [List.head?_cons, Option.toList_some, List.length_cons, List.length_nil] at *
              omega
        · cases h

/-- **A token is recognised in every front part of the text that has all of its characters.** -/
theorem recognise_of_front {glued : Bool} {front cs : List Char} {t : Token} {n : Nat}
    (h : Token.recognise glued cs = .token t n) (hne : cs ≠ []) (hpre : front <+: cs)
    (hlen : n ≤ front.length) : Token.recognise glued front = .token t n := by
  obtain ⟨c, cs, rfl⟩ := List.exists_cons_of_ne_nil hne
  have hpos := Token.recognise_pos h
  cases front with
  | nil =>
      rw [List.length_nil] at hlen
      omega
  | cons d front =>
      obtain ⟨rfl, hpre'⟩ := List.cons_prefix_cons.1 hpre
      rw [List.length_cons] at hlen
      simp only [Token.recognise] at h ⊢
      split
      · rename_i hq
        rw [if_pos hq] at h
        exact readString_of_front h hpre' hlen
      rename_i hq
      rw [if_neg hq] at h
      split
      · rename_i hq'
        rw [if_pos hq'] at h
        unfold Token.readCharacter at h ⊢
        split at h
        · cases h
        · cases h
        · rename_i x q' rest
          split at h
          · rename_i hclose
            cases h
            obtain ⟨rest', rfl, -⟩ := prefix_two hpre' (by omega)
            simp only [hclose, if_true]
          · cases h
      rename_i hq'
      rw [if_neg hq'] at h
      split
      · rename_i hd
        rw [if_pos hd] at h
        exact readNumber_of_front h hpre (by rw [List.length_cons]; exact hlen)
      rename_i hd
      rw [if_neg hd] at h
      split
      · rename_i hs
        rw [if_pos hs] at h
        cases h
        unfold Token.readWord
        rw [(takeWhile_of_front hpre (p := continuesName) hlen).1]
      rename_i hs
      rw [if_neg hs] at h
      split at h
      · rename_i t' n' hsym
        cases h
        -- a second character is among those of the front part, or it is none of the symbol
        have hsym' : Token.symbol? glued d front.head? = some (t, n) := by
          cases front with
          | nil =>
              obtain rfl : n = 1 := by
                rw [List.length_nil] at hlen
                omega
              exact symbol?_none hsym
          | cons e front =>
              obtain ⟨rest, rfl⟩ := hpre'
              exact hsym
        rw [hsym']
      · cases h

/-! ### Gaps of a front part -/

theorem length_afterTrivia_le (comment : Bool) (cs : List Char) :
    (afterTrivia comment cs).length ≤ cs.length := by
  rw [← skipTrivia_snd comment 0]
  exact Scanner.length_skipTrivia_le ..

/-- Where something is skipped, less is left. -/
theorem afterTrivia_ne_cons (comment : Bool) (c : Char) (cs : List Char) :
    afterTrivia comment cs ≠ c :: cs := by
  intro h
  have hle := length_afterTrivia_le comment cs
  rw [h, List.length_cons] at hle
  omega

/-- Where nothing is skipped, nothing is skipped either when the text ends early. -/
theorem afterTrivia_eq_self_of_front {comment : Bool} {front cs : List Char}
    (h : afterTrivia comment cs = cs) (hpre : front <+: cs) :
    afterTrivia comment front = front := by
  cases front with
  | nil => cases comment <;> rfl
  | cons c front =>
      obtain ⟨rest, rfl⟩ := hpre
      rw [List.cons_append] at h
      cases comment with
      | true =>
          rw [afterTrivia] at h
          exact absurd h (afterTrivia_ne_cons _ _ _)
      | false =>
          rw [afterTrivia] at h ⊢
          split at h
          · exact absurd h (afterTrivia_ne_cons _ _ _)
          rename_i hspace
          rw [if_neg hspace]
          split at h
          · exact absurd h (afterTrivia_ne_cons _ _ _)
          rename_i hdash
          refine if_neg fun hd => hdash ⟨hd.1, ?_⟩
          cases front with
          | nil => exact absurd hd.2 (by simp)
          | cons d front => exact hd.2

/-- What is skipped before a token is skipped as well when the text ends early, at the token or behind
it. -/
theorem afterTrivia_of_front (comment : Bool) {skipped front cs : List Char}
    (h : afterTrivia comment (skipped ++ cs) = cs) (hpre : front <+: cs) :
    afterTrivia comment (skipped ++ front) = front := by
  induction skipped generalizing comment with
  | nil => exact afterTrivia_eq_self_of_front h hpre
  | cons c skipped ih =>
      cases comment with
      | true => exact ih _ h
      | false =>
          rw [List.cons_append, afterTrivia] at h ⊢
          split at h
          · rename_i hspace
            rw [if_pos hspace]
            exact ih _ h
          rename_i hspace
          rw [if_neg hspace]
          split at h
          · rename_i hdash
            have hhead : (skipped ++ front).head? = some '-' := by
              cases skipped with
              | cons d skipped => exact hdash.2
              | nil =>
                  -- a comment is skipped to the end of its line, and not left at its second minus
                  rw [List.nil_append] at h
                  cases cs with
                  | nil => exact absurd hdash.2 (by simp)
                  | cons d cs =>
                      rw [afterTrivia] at h
                      exact absurd h (afterTrivia_ne_cons _ _ _)
            rw [if_pos ⟨hdash.1, hhead⟩]
            exact ih _ h
          · -- a character that is not skipped does not stand before the token
            have hlen := congrArg List.length h
            rw [List.length_cons, List.length_append] at hlen
            omega

theorem decrementAhead_of_front {glued : Bool} {front cs : List Char} (hpre : front <+: cs)
    (hlen : decrementAhead glued cs = true → 2 ≤ front.length) :
    decrementAhead glued front = decrementAhead glued cs := by
  obtain ⟨rest, rfl⟩ := hpre
  match front, hlen with
  | _ :: _ :: _, _ => rfl
  | [], hlen =>
      cases hdec : decrementAhead glued ([] ++ rest) with
      | false => simp [decrementAhead]
      | true => exact absurd (hlen hdec) (by simp)
  | [c], hlen =>
      cases hdec : decrementAhead glued ([c] ++ rest) with
      | false => simp [decrementAhead]
      | true => exact absurd (hlen hdec) (by simp)

/-- The next token is the same in a front part of the text that has all of its characters. -/
theorem nextText_of_front {glued : Bool} {gap front cs : List Char}
    (h : nextText glued (gap ++ cs) = cs) (hpre : front <+: cs)
    (hdec : decrementAhead glued (gap ++ front) = decrementAhead glued (gap ++ cs)) :
    nextText glued (gap ++ front) = front := by
  unfold nextText at h ⊢
  rw [hdec]
  split
  · rename_i hd
    rw [if_pos hd] at h
    obtain rfl : gap = [] := List.append_left_eq_self.1 h
    rfl
  · rename_i hd
    rw [if_neg hd] at h
    exact afterTrivia_of_front false h hpre

/-! ### The tokens before a fault -/

/-- Where a step of a loop stands, it is the token that is recognised, and takes two characters. -/
theorem recognise_decrement {glued : Bool} {cs : List Char} (h : decrementAhead glued cs = true) :
    Token.recognise true cs = .token (.step .decrement) 2 ∧ 2 ≤ cs.length := by
  match cs with
  | [] => simp [decrementAhead] at h
  | [c] => simp [decrementAhead] at h
  | c :: d :: cs =>
      simp only [decrementAhead, List.head?_cons, List.tail_cons, Bool.and_eq_true, beq_iff_eq,
        Option.some.injEq] at h
      obtain ⟨⟨-, rfl⟩, rfl⟩ := h
      exact ⟨rfl, by simp⟩

/-- The characters of the token that comes next, and any front part of the text behind it, are read as
that token. -/
theorem recognise_ahead {glued : Bool} {gap text front back : List Char} {t : Token} {n : Nat}
    (hne : text ≠ []) (htext : nextText glued (gap ++ text) = text)
    (hrec : Token.recognise (decrementAhead glued (gap ++ text)) text = .token t n)
    (hdrop : text.drop n = front ++ back) :
    decrementAhead glued (gap ++ (text.take n ++ front)) = decrementAhead glued (gap ++ text) ∧
    nextText glued (gap ++ (text.take n ++ front)) = text.take n ++ front ∧
    Token.recognise (decrementAhead glued (gap ++ text)) (text.take n ++ front) = .token t n := by
  have hsplit : text = text.take n ++ front ++ back := by
    rw [List.append_assoc, ← hdrop, List.take_append_drop]
  have hpre : text.take n ++ front <+: text := ⟨back, hsplit.symm⟩
  have hle := recognise_le hrec
  have hdec : decrementAhead glued (gap ++ (text.take n ++ front)) =
      decrementAhead glued (gap ++ text) := by
    refine decrementAhead_of_front ((List.prefix_append_right_inj gap).2 hpre) fun hd => ?_
    -- the step of a loop takes two characters, which the front part has
    obtain ⟨hstep, hlong⟩ := recognise_decrement hd
    rw [nextText, if_pos hd] at htext
    rw [hd, ← htext, hstep] at hrec
    cases hrec
    rw [htext] at hlong
    rw [List.length_append, List.length_append, List.length_take]
    omega
  refine ⟨hdec, nextText_of_front htext hpre hdec, recognise_of_front hrec hne hpre ?_⟩
  rw [List.length_append, List.length_take]
  omega

/-- A step of the scanner that finds a token finds the same one when the text ends early, behind the
token. -/
theorem Scanner.next_of_front {s s' : Scanner} {t : Spanned} (h : s.next = (.ok t, s'))
    (ht : t.token ≠ .eof) {front back : List Char} (hrest : s'.rest = front ++ back) :
    ∃ longer, s.rest = longer ++ back ∧
      (Scanner.mk longer s.offset s.glued).next = (.ok t, ⟨front, s'.offset, s'.glued⟩) := by
  obtain ⟨gap, hgap, -, hcases⟩ := s.next_cases
  generalize htext : nextText s.glued s.rest = text at hgap hcases
  cases hrec : Token.recognise (decrementAhead s.glued s.rest) text with
  | fault f reported consumed =>
      rw [hrec, h] at hcases
      cases hcases
  | token u n =>
      rw [hrec] at hcases
      obtain ⟨stop, hstop, heq⟩ := hcases
      rw [h] at heq
      cases heq
      have hne : text ≠ [] := by
        rintro rfl
        exact ht (Token.recognise_nil hrec)
      rw [hgap] at htext hrec
      obtain ⟨hdec, hnext, hsame⟩ := recognise_ahead hne htext hrec hrest
      refine ⟨gap ++ (text.take n ++ front), ?_, ?_⟩
      · rw [hgap, List.append_assoc, List.append_assoc, ← hrest, List.take_append_drop]
      obtain ⟨gap', hgap', -, hcases'⟩ :=
        (Scanner.mk (gap ++ (text.take n ++ front)) s.offset s.glued).next_cases
      simp only [hnext, hdec, hsame] at hgap' hcases'
      obtain rfl := List.append_cancel_right hgap'
      obtain ⟨stop', hstop', heq'⟩ := hcases'
      have hlen : n = (text.take n).length := by
        rw [List.length_take, Nat.min_eq_left (recognise_le hrec)]
      have htake : (text.take n ++ front).take n = text.take n := List.take_left' hlen.symm
      have hdrop : (text.take n ++ front).drop n = front := List.drop_left' hlen.symm
      rw [htake, ← hstop] at hstop'
      rw [heq', hstop', hdrop]

theorem Scan.result_eq_ok {s : Scan} {ts : List Spanned} :
    s.result = .ok ts ↔ s.error = none ∧ s.tokens = ts := by
  unfold Scan.result
  cases s.error <;> simp

theorem Scan.result_eq_error {s : Scan} {e : LexError} :
    s.result = .error e ↔ s.error = some e := by
  unfold Scan.result
  cases s.error <;> simp

/-- A step of the scanner that reports a fault has stepped over a gap, and concerns the first characters
behind it.  The gap alone has no tokens. -/
theorem Scanner.next_fault {s s' : Scanner} {e : LexError} (h : s.next = (.error e, s')) :
    ∃ gap reported after, s.rest = gap ++ (reported ++ after) ∧
      e.span = ⟨s.offset + byteLength gap, s.offset + byteLength gap + byteLength reported⟩ ∧
      nextText s.glued gap = [] := by
  obtain ⟨gap, hgap, -, hcases⟩ := s.next_cases
  generalize htext : nextText s.glued s.rest = text at hgap hcases
  cases hrec : Token.recognise (decrementAhead s.glued s.rest) text with
  | token t n =>
      rw [hrec] at hcases
      obtain ⟨stop, -, heq⟩ := hcases
      rw [h] at heq
      cases heq
  | fault f reported consumed =>
      rw [hrec, h] at hcases
      cases hcases
      refine ⟨gap, text.take reported, text.drop reported, ?_, rfl, ?_⟩
      · rw [List.take_append_drop]
        exact hgap
      rw [hgap] at htext hrec
      -- the step of a loop is no fault
      have hdec : decrementAhead s.glued (gap ++ text) = false := by
        cases hd : decrementAhead s.glued (gap ++ text) with
        | false => rfl
        | true =>
            have hstep := (recognise_decrement hd).1
            rw [nextText, if_pos hd] at htext
            rw [hd, ← htext, hstep] at hrec
            cases hrec
      have hnil : decrementAhead s.glued (gap ++ []) = decrementAhead s.glued (gap ++ text) :=
        decrementAhead_of_front ((List.prefix_append_right_inj gap).2 List.nil_prefix)
          fun hd => absurd hd (by simp [hdec])
      have hnext := nextText_of_front htext List.nil_prefix hnil
      rwa [List.append_nil] at hnext

/-- A gap alone is read as the end. -/
theorem Scanner.scan_gap {s : Scanner} (h : nextText s.glued s.rest = []) :
    s.scan.result = .ok [⟨.point (s.offset + byteLength s.rest), .eof⟩] := by
  have hrec : Token.recognise (decrementAhead s.glued s.rest) (nextText s.glued s.rest) =
      .token .eof 0 := by rw [h]; rfl
  obtain ⟨span, offset, hnext⟩ := Scanner.next_of_token hrec
  obtain ⟨-, heof, -⟩ := Scanner.next_end hnext rfl
  rw [scan_of_next hnext, if_pos rfl, heof]
  rfl

/-- What is read and what is left make up the same text after every step. -/
theorem Scanner.next_offset {s s' : Scanner} {t : Spanned} (h : s.next = (.ok t, s'))
    (ht : t.token ≠ .eof) : s'.offset + byteLength s'.rest = s.offset + byteLength s.rest := by
  obtain ⟨gap, lexeme, hrest, -, -, -, -, hoffset, -⟩ := Scanner.next_token h ht
  rw [hrest, hoffset, byteLength_append, byteLength_append]
  omega

/-- **The text before a fault has the tokens read before it.**  The fault concerns the first characters
behind that text. -/
theorem Scanner.scan_before_fault (s : Scanner) {e : LexError} (h : s.scan.error = some e) :
    ∃ front reported after, s.rest = front ++ (reported ++ after) ∧
      e.span = ⟨s.offset + byteLength front, s.offset + byteLength front + byteLength reported⟩ ∧
      (Scanner.mk front s.offset s.glued).scan.result =
        .ok (s.scan.tokens ++ [⟨.point e.span.start, .eof⟩]) := by
  induction s using Scanner.scan.induct with
  | case1 s e' s' hnext =>
      rw [scan_of_fault hnext] at h ⊢
      cases h
      obtain ⟨gap, reported, after, hrest, hspan, hgap⟩ := next_fault hnext
      refine ⟨gap, reported, after, hrest, hspan, ?_⟩
      rw [hspan]
      exact scan_gap (s := ⟨gap, s.offset, s.glued⟩) hgap
  | case2 s t s' hnext ht =>
      rw [scan_of_next hnext, if_pos ht] at h
      exact absurd h (by simp)
  | case3 s t s' hnext ht ih =>
      rw [scan_of_next hnext, if_neg ht] at h ⊢
      obtain ⟨front, reported, after, hrest, hspan, hscan⟩ := ih h
      obtain ⟨longer, hlonger, hnext'⟩ := next_of_front hnext ht hrest
      have hoffset : s.offset + byteLength longer = s'.offset + byteLength front := by
        have hsum := next_offset hnext ht
        simp only [hrest, hlonger, byteLength_append] at hsum
        omega
      refine ⟨longer, reported, after, hlonger, by rw [hspan, hoffset], ?_⟩
      obtain ⟨herr, htokens⟩ := Scan.result_eq_ok.1 hscan
      rw [scan_of_next hnext', if_neg ht]
      exact Scan.result_eq_ok.2 ⟨herr, congrArg (t :: ·) htokens⟩

/-! ### The tokens of a text -/

/-- The tokens tile the text: they lie in order and take characters, all but the end, which stands at the
end of the text; before each of them stands a gap, and its own characters spell it. -/
structure Tiled (text : List Char) (tokens : List Spanned) : Prop where
  ends : ∃ body, tokens = body ++ [⟨.point (byteLength text), .eof⟩] ∧
    ∀ t ∈ body, t.token ≠ .eof ∧ t.span.start < t.span.stop
  fits : ∀ t ∈ tokens, t.span.Fits text
  ordered : tokens.Pairwise fun t u => t.span.stop ≤ u.span.start
  gaps : GapsFit text 0 false tokens
  spelled : ∀ t ∈ tokens, t.token ≠ .eof → ∃ part, Slice text t.span part ∧ t.token.SpelledBy part

theorem Tiling.tiled {text : List Char} {tokens : List Spanned} (h : Tiling false 0 text tokens) :
    Tiled text tokens where
  ends := by
    have hends := h.ends
    rwa [Nat.zero_add] at hends
  fits := h.fits
  ordered := h.ordered
  gaps := h.gapsFit [] rfl
  spelled := by
    intro t ht hne
    obtain ⟨part, hpart, hspelled⟩ := h.spelled [] rfl t ht hne
    exact ⟨part, hpart, hspelled.spelledBy⟩

/-- A text that has no tokens has a fault at a span that fits it, and the text before the fault has
exactly the tokens that were read before it, and the end. -/
theorem tokenize_before_fault {text : String} {e : LexError} (h : tokenize text = .error e) :
    ∃ before reported after, text.toList = before ++ reported ++ after ∧
      e.span = ⟨byteLength before, byteLength (before ++ reported)⟩ ∧
      tokenize (String.ofList before) =
        .ok ((Scanner.start text.toList).scan.tokens ++ [⟨.point e.span.start, .eof⟩]) := by
  unfold tokenize at h
  obtain ⟨before, reported, after, hrest, hspan, hscan⟩ :=
    Scanner.scan_before_fault _ (Scan.result_eq_error.1 h)
  refine ⟨before, reported, after, ?_, ?_, ?_⟩
  · rw [List.append_assoc]
    exact hrest
  · rw [hspan, byteLength_append]
    simp [Scanner.start]
  · unfold tokenize
    rw [String.toList_ofList]
    exact hscan

/-- The tokens of a text tile it.  A text that has none has a fault at a span that fits it, and the text
before the fault has exactly the tokens that were read before it, and the end. -/
theorem tokenize_tiles (text : String) :
    match tokenize text with
    | .ok tokens => Tiled text.toList tokens
    | .error e => ∃ before reported after, text.toList = before ++ reported ++ after ∧
        e.span = ⟨byteLength before, byteLength (before ++ reported)⟩ ∧
        tokenize (String.ofList before) =
          .ok ((Scanner.start text.toList).scan.tokens ++ [⟨.point e.span.start, .eof⟩]) := by
  cases h : tokenize text with
  | ok tokens =>
      obtain ⟨herror, rfl⟩ := Scan.result_eq_ok.1 h
      exact (tiling_of_scan (.start text.toList) herror).tiled
  | error e => exact tokenize_before_fault h

end BisayaLang
