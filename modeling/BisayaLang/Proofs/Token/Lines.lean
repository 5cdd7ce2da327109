/-
**Two texts, one below the other.**

No token goes on behind the end of a line.  So the tokens of a text with another one below it are the
tokens of the first and then those of the second, which stand further back by the length of the first
and its line end.  If the second has a fault, so has the whole, at the same place.

A quoted text does run across lines, and so would one that the first text leaves open; but then the first
text has a fault of its own.  A comment at the end of the first text is closed by the line end.

Main definitions:

* `BisayaLang.Span.shift`, `BisayaLang.Scan.shift` — places further back.

Main results:

* `BisayaLang.recognise_before_newline` — a token is recognised as well before a line end;
* `BisayaLang.Scanner.scan_shift` — where a text stands makes no difference but for the places;
* `BisayaLang.Scanner.scan_below` — what is read of two texts below each other;
* `BisayaLang.tokenize_below` — **the tokens of two texts below each other**;
* `BisayaLang.tokenize_by_lines` — the same for any text that has tokens.
-/

import BisayaLang.Proofs.Token.Faults

set_option relaxedAutoImplicit false
set_option autoImplicit false

namespace BisayaLang

open Text

/-! ### Tokens before a line end -/

/-- A run of characters of a class without the line end stops there. -/
theorem takeWhile_before_newline {p : Char → Bool} (hp : p '\n' = false) (cs below : List Char) :
    (cs ++ '\n' :: below).takeWhile p = cs.takeWhile p ∧
      (cs ++ '\n' :: below).dropWhile p = cs.dropWhile p ++ '\n' :: below := by
  induction cs with
  | nil => simp [hp]
  | cons c cs ih =>
      cases hc : p c with
      | true => simp [hc, ih]
      | false => simp [hc]

theorem readNumber_before_newline (cs below : List Char) :
    Token.readNumber (cs ++ '\n' :: below) = Token.readNumber cs := by
  have hdigit : isDigit '\n' = false := by decide
  obtain ⟨htake, hdrop⟩ := takeWhile_before_newline hdigit cs below
  unfold Token.readNumber
  rw [htake, hdrop]
  match cs.dropWhile isDigit with
  | [] => rfl
  | [c] =>
      by_cases hc : c = '.'
      · subst hc
        simp [hdigit]
      · simp [hc]
  | c :: d :: rest =>
      by_cases hc : c = '.'
      · subst hc
        have hfraction := (takeWhile_before_newline hdigit (d :: rest) below).1
        simp only [List.cons_append] at hfraction ⊢
        rw [hfraction]
      · simp [hc]

/-- Text in quotes that ends does so before what stands behind it. -/
theorem readString_append {cs : List Char} {t : Token} {n : Nat}
    (h : Token.readString cs = .token t n) (more : List Char) :
    Token.readString (cs ++ more) = .token t n := by
  have hsum := length_takeWhile_add (fun c => foldQuote c != '"') cs
  unfold Token.readString at h ⊢
  cases hdrop : cs.dropWhile fun c => foldQuote c != '"' with
  | nil =>
      rw [hdrop] at h
      cases h
  | cons q rest =>
      rw [hdrop, List.length_cons] at hsum
      have htake : (cs ++ more).takeWhile (fun c => foldQuote c != '"') =
          cs.takeWhile fun c => foldQuote c != '"' := by
        rw [List.takeWhile_append, if_neg (by omega)]
      rw [hdrop] at h
      rw [htake, List.dropWhile_append, hdrop]
      exact h

theorem symbol?_before_newline (glued : Bool) (c : Char) (cs below : List Char) :
    Token.symbol? glued c (cs ++ '\n' :: below).head? = Token.symbol? glued c cs.head? := by
  cases cs with
  | cons d cs => rfl
  | nil =>
      show Token.symbol? glued c (some '\n') = Token.symbol? glued c none
      unfold Token.symbol?
      split <;> simp_all

/-- **A token is recognised as well before a line end.** -/
theorem recognise_before_newline {glued : Bool} {cs : List Char} {t : Token} {n : Nat} (hne : cs ≠ [])
    (h : Token.recognise glued cs = .token t n) (below : List Char) :
    Token.recognise glued (cs ++ '\n' :: below) = .token t n := by
  obtain ⟨c, cs, rfl⟩ := List.exists_cons_of_ne_nil hne
  rw [List.cons_append]
  simp only [Token.recognise] at h ⊢
  split
  · rename_i hq
    rw [if_pos hq] at h
    exact readString_append h _
  rename_i hq
  rw [if_neg hq] at h
  split
  · rename_i hq'
    rw [if_pos hq'] at h
    unfold Token.readCharacter at h
    split at h
    · cases h
    · cases h
    · exact h
  rename_i hq'
  rw [if_neg hq'] at h
  split
  · rename_i hd
    rw [if_pos hd] at h
    rw [← List.cons_append, readNumber_before_newline]
    exact h
  rename_i hd
  rw [if_neg hd] at h
  split
  · rename_i hs
    rw [if_pos hs] at h
    have hword : continuesName '\n' = false := by decide
    unfold Token.readWord at h ⊢
    rw [← List.cons_append, (takeWhile_before_newline hword (c :: cs) below).1]
    exact h
  rename_i hs
  rw [if_neg hs] at h
  rw [symbol?_before_newline]
  exact h

/-! ### Gaps before a line end -/

/-- A gap that ends with the text is closed by the line end, and any other is the same. -/
theorem afterTrivia_before_newline (comment : Bool) (cs below : List Char) :
    afterTrivia comment (cs ++ '\n' :: below) =
      if afterTrivia comment cs = [] then afterTrivia false below
      else afterTrivia comment cs ++ '\n' :: below := by
  induction cs generalizing comment with
  | nil => cases comment <;> rfl
  | cons c cs ih =>
      have hhead : (cs ++ '\n' :: below).head? = some '-' ↔ cs.head? = some '-' := by
        cases cs <;> simp
      rw [List.cons_append]
      cases comment with
      | true => exact ih _
      | false =>
          simp only [afterTrivia, hhead]
          split
          · exact ih false
          · split
            · exact ih true
            · simp

theorem decrementAhead_before_newline (glued : Bool) (cs below : List Char) :
    decrementAhead glued (cs ++ '\n' :: below) = decrementAhead glued cs := by
  match cs with
  | [] => simp [decrementAhead]
  | [c] => simp [decrementAhead]
  | c :: d :: cs => rfl

theorem nextText_before_newline {glued : Bool} {cs : List Char} (h : nextText glued cs ≠ [])
    (below : List Char) : nextText glued (cs ++ '\n' :: below) = nextText glued cs ++ '\n' :: below := by
  unfold nextText at h ⊢
  rw [decrementAhead_before_newline]
  split
  · rfl
  · rename_i hdec
    rw [if_neg hdec] at h
    rw [afterTrivia_before_newline, if_neg h]

/-- Where the last gap of a text ends, that is the offset behind the text. -/
theorem skipTrivia_before_newline (comment : Bool) (offset : Nat) {cs : List Char}
    (h : afterTrivia comment cs = []) (below : List Char) :
    Scanner.skipTrivia comment offset (cs ++ '\n' :: below) =
      Scanner.skipTrivia false (offset + byteLength cs + 1) below := by
  refine Prod.ext ?_ ?_
  · have hall := skipTrivia_fst comment offset (cs ++ '\n' :: below)
    have hbelow := skipTrivia_fst false (offset + byteLength cs + 1) below
    rw [afterTrivia_before_newline, if_pos h, byteLength_append, byteLength_cons] at hall
    have hsize : '\n'.utf8Size = 1 := by decide
    omega
  · rw [skipTrivia_snd, skipTrivia_snd, afterTrivia_before_newline, if_pos h]

/-! ### One step of the scanner -/

/-- A step that finds a token finds it as well before a line end. -/
theorem Scanner.next_before_newline {s s' : Scanner} {t : Spanned} (h : s.next = (.ok t, s'))
    (ht : t.token ≠ .eof) (below : List Char) :
    (Scanner.mk (s.rest ++ '\n' :: below) s.offset s.glued).next =
      (.ok t, ⟨s'.rest ++ '\n' :: below, s'.offset, s'.glued⟩) := by
  obtain ⟨gap, hgap, -, hcases⟩ := s.next_cases
  generalize htext : nextText s.glued s.rest = text at hgap hcases
  cases hrec : Token.recognise (decrementAhead s.glued s.rest) text with
  | fault f reported consumed =>
      rw [hrec, h] at hcases
      cases hcases
  | token u n =>
      rw [hrec] at hcases
      obtain ⟨stop, hstop, heq⟩ := hcases
      rw [h] at heq
      cases heq
      have hne : text ≠ [] := by
        rintro rfl
        exact ht (Token.recognise_nil hrec)
      have hnext := nextText_before_newline (htext ▸ hne) below
      rw [htext] at hnext
      obtain ⟨gap', hgap', -, hcases'⟩ :=
        (Scanner.mk (s.rest ++ '\n' :: below) s.offset s.glued).next_cases
      simp only [hnext, decrementAhead_before_newline, recognise_before_newline hne hrec] at hgap' hcases'
      obtain ⟨stop', hstop', heq'⟩ := hcases'
      have hle := recognise_le hrec
      rw [List.take_append_of_le_length hle] at hstop'
      rw [List.drop_append_of_le_length hle] at heq'
      -- the gap is the same, since the text behind it is
      rw [hgap, List.append_assoc] at hgap'
      obtain rfl := List.append_cancel_right hgap'
      rw [heq', hstop', hstop]

/-- A step that finds the end is, before a line end, the first step of what stands below. -/
theorem Scanner.next_at_newline {s : Scanner} (h : nextText s.glued s.rest = []) (below : List Char) :
    (Scanner.mk (s.rest ++ '\n' :: below) s.offset s.glued).next =
      (Scanner.mk below (s.offset + byteLength s.rest + 1) false).next := by
  have hdec : decrementAhead s.glued s.rest = false := by
    cases hd : decrementAhead s.glued s.rest with
    | false => rfl
    | true =>
        rw [nextText, if_pos hd] at h
        rw [h] at hd
        simp [decrementAhead] at hd
  have hat : (Scanner.mk (s.rest ++ '\n' :: below) s.offset s.glued).atDecrement = false := by
    show decrementAhead s.glued (s.rest ++ '\n' :: below) = false
    rw [decrementAhead_before_newline, hdec]
  have hat' : (Scanner.mk below (s.offset + byteLength s.rest + 1) false).atDecrement = false := rfl
  have hskip : (Scanner.mk (s.rest ++ '\n' :: below) s.offset s.glued).skip =
      (Scanner.mk below (s.offset + byteLength s.rest + 1) false).skip := by
    unfold Scanner.skip
    rw [hat, hat']
    rw [nextText, hdec] at h
    exact skipTrivia_before_newline false s.offset h below
  unfold Scanner.next
  rw [hskip, hat, hat']

/-! ### Places further back -/

/-- The span so many bytes further back. -/
def Span.shift (k : Nat) (s : Span) : Span := ⟨s.start + k, s.stop + k⟩

/-- The token further back. -/
def Spanned.shift (k : Nat) (t : Spanned) : Spanned := ⟨t.span.shift k, t.token⟩

/-- The error further back. -/
def LexError.shift (k : Nat) (e : LexError) : LexError := ⟨e.fault, e.span.shift k⟩

/-- The scanner before the same text further back. -/
def Scanner.shift (k : Nat) (s : Scanner) : Scanner := ⟨s.rest, s.offset + k, s.glued⟩

/-- What is read of the same text further back. -/
def Scan.shift (k : Nat) (s : Scan) : Scan :=
  ⟨s.tokens.map (Spanned.shift k), s.error.map (LexError.shift k), s.stop.shift k⟩

theorem Scanner.next_shift (k : Nat) (s : Scanner) :
    (s.shift k).next = match s.next with
      | (.ok t, s') => (.ok (t.shift k), s'.shift k)
      | (.error e, s') => (.error (e.shift k), s'.shift k) := by
  have hfar : ∀ a b c : Nat, a + k + b + c = a + b + c + k := by omega
  have hnear : ∀ a b : Nat, a + k + b = a + b + k := by omega
  obtain ⟨gap, hgap, -, hcases⟩ := s.next_cases
  obtain ⟨gap', hgap', -, hcases'⟩ := (s.shift k).next_cases
  simp only [Scanner.shift] at hgap' hcases' ⊢
  obtain rfl := List.append_cancel_right (hgap.symm.trans hgap')
  cases hrec : Token.recognise (decrementAhead s.glued s.rest) (nextText s.glued s.rest) with
  | token t n =>
      rw [hrec] at hcases hcases'
      obtain ⟨stop, rfl, hnext⟩ := hcases
      obtain ⟨stop', rfl, hnext'⟩ := hcases'
      rw [hnext, hnext', hfar, hnear]
      rfl
  | fault f reported consumed =>
      rw [hrec] at hcases hcases'
      rw [hcases, hcases', hfar, hfar, hnear]
      rfl

/-- **Where a text stands makes no difference but for the places.** -/
theorem Scanner.scan_shift (k : Nat) (s : Scanner) : (s.shift k).scan = s.scan.shift k := by
  induction s using Scanner.scan.induct with
  | case1 s e s' hnext =>
      have hshift := s.next_shift k
      rw [hnext] at hshift
      rw [scan_of_fault hnext, scan_of_fault hshift]
      rfl
  | case2 s t s' hnext ht =>
      have hshift := s.next_shift k
      rw [hnext] at hshift
      rw [scan_of_next hnext, scan_of_next hshift, if_pos ht,
        if_pos (show (t.shift k).token = .eof from ht)]
      rfl
  | case3 s t s' hnext ht ih =>
      have hshift := s.next_shift k
      rw [hnext] at hshift
      rw [scan_of_next hnext, scan_of_next hshift, if_neg ht,
        if_neg (show (t.shift k).token ≠ .eof from ht), ih]
      rfl

/-! ### Two texts -/

/-- What is read depends on the steps only. -/
theorem Scanner.scan_congr {s r : Scanner} (h : s.next = r.next) : s.scan = r.scan := by
  rcases hr : r.next with ⟨e | t, s'⟩
  · rw [scan_of_fault hr, scan_of_fault (h.trans hr)]
  · rw [scan_of_next hr, scan_of_next (h.trans hr)]

theorem Scanner.nextText_of_end {s s' : Scanner} {t : Spanned} (h : s.next = (.ok t, s'))
    (ht : t.token = .eof) : nextText s.glued s.rest = [] := by
  by_cases hne : nextText s.glued s.rest = []
  · exact hne
  exfalso
  obtain ⟨gap, -, -, hcases⟩ := s.next_cases
  cases hrec : Token.recognise (decrementAhead s.glued s.rest) (nextText s.glued s.rest) with
  | token u n =>
      rw [hrec] at hcases
      obtain ⟨stop, -, heq⟩ := hcases
      rw [h] at heq
      cases heq
      exact recognise_ne_eof hne hrec ht
  | fault f reported consumed =>
      rw [hrec, h] at hcases
      cases hcases

/-- **What is read of two texts below each other.**  The end of the first is left out, and then comes
what is read of the second. -/
theorem Scanner.scan_below (s : Scanner) (h : s.scan.error = none) (below : List Char) :
    let later := (Scanner.mk below (s.offset + byteLength s.rest + 1) false).scan
    (Scanner.mk (s.rest ++ '\n' :: below) s.offset s.glued).scan =
      { later with tokens := s.scan.tokens.dropLast ++ later.tokens } := by
  induction s using Scanner.scan.induct with
  | case1 s e s' hnext =>
      rw [scan_of_fault hnext] at h
      exact absurd h (by simp)
  | case2 s t s' hnext ht =>
      rw [scan_of_next hnext, if_pos ht]
      exact scan_congr (next_at_newline (nextText_of_end hnext ht) below)
  | case3 s t s' hnext ht ih =>
      rw [scan_of_next hnext, if_neg ht] at h ⊢
      have hlater := ih h
      rw [next_offset hnext ht] at hlater
      have hne : s'.scan.tokens ≠ [] := by
        obtain ⟨body, hbody, -⟩ := (tiling_of_scan s' h).ends
        simp [hbody]
      rw [scan_of_next (next_before_newline hnext ht below), if_neg ht, hlater]
      simp only [List.dropLast_cons_of_ne_nil hne, List.cons_append]

/-- The end is the last token of a text, and only the last. -/
theorem tokenize_ends {text : String} {tokens : List Spanned} (h : tokenize text = .ok tokens) :
    ∃ body, tokens = body ++ [⟨.point text.utf8ByteSize, .eof⟩] ∧ ∀ t ∈ body, t.token ≠ .eof := by
  obtain ⟨herror, rfl⟩ := Scan.result_eq_ok.1 h
  obtain ⟨body, hends, hbody⟩ := (tiling_of_scan (.start text.toList) herror).ends
  refine ⟨body, ?_, fun t ht => (hbody t ht).1⟩
  rw [hends, ← byteLength_toList]
  exact congrArg (fun n => body ++ [⟨.point n, .eof⟩]) (Nat.zero_add _)

/-- **The tokens of two texts below each other** are those of the first without its end, and those of the
second further back.  If the second has a fault, it is the fault of both, further back. -/
theorem tokenize_below {above : String} {body : List Spanned} {stop : Spanned}
    (h : tokenize above = .ok (body ++ [stop])) (below : String) :
    tokenize (above ++ "\n" ++ below) = match tokenize below with
      | .ok ts => .ok (body ++ ts.map (Spanned.shift (above.utf8ByteSize + 1)))
      | .error e => .error (e.shift (above.utf8ByteSize + 1)) := by
  obtain ⟨herror, htokens⟩ := Scan.result_eq_ok.1 h
  have htext : (above ++ "\n" ++ below).toList = above.toList ++ '\n' :: below.toList := by simp
  have hstart : Scanner.mk below.toList (0 + byteLength above.toList + 1) false =
      (Scanner.start below.toList).shift (above.utf8ByteSize + 1) := by
    rw [byteLength_toList, Nat.add_assoc]
    rfl
  have hscan := (Scanner.start above.toList).scan_below herror below.toList
  simp only [Scanner.start, hstart, Scanner.scan_shift] at hscan
  unfold tokenize
  rw [htext]
  unfold Scanner.start at htokens ⊢
  rw [hscan, htokens, List.dropLast_concat]
  unfold Scan.result Scan.shift
  cases (Scanner.mk below.toList 0 false).scan.error <;> rfl

/-- **The tokens of a text that stands in lines are those of its lines.**  A text that has tokens ends
with the token for its end, and only with that.  Whatever is put below it, the whole has the tokens of
the first text up to its end and then those of the second, further back by the first text and the line
end; or the fault of the second, as much further back. -/
theorem tokenize_by_lines {above : String} {tokens : List Spanned} (h : tokenize above = .ok tokens)
    (below : String) :
    ∃ body, tokens = body ++ [⟨.point above.utf8ByteSize, .eof⟩] ∧ (∀ t ∈ body, t.token ≠ .eof) ∧
      tokenize (above ++ "\n" ++ below) = match tokenize below with
        | .ok ts => .ok (body ++ ts.map (Spanned.shift (above.utf8ByteSize + 1)))
        | .error e => .error (e.shift (above.utf8ByteSize + 1)) := by
  obtain ⟨body, rfl, hbody⟩ := tokenize_ends h
  exact ⟨body, rfl, hbody, tokenize_below h below⟩

/-- A number with a point below it, which does not go on with it, and a name with `--` below it, which is a
comment there and no step. -/
theorem tokenize_by_lines_seam :
    tokenize "i -- 1\n2" = .ok [⟨⟨0, 1⟩, .name "i"⟩, ⟨⟨7, 8⟩, .integer "2"⟩, ⟨.point 8, .eof⟩] ∧
    tokenize "i -- 1\n2\n.5 i" = .ok [⟨⟨0, 1⟩, .name "i"⟩, ⟨⟨7, 8⟩, .integer "2"⟩,
      ⟨⟨9, 10⟩, .mark .dot⟩, ⟨⟨10, 11⟩, .integer "5"⟩, ⟨⟨12, 13⟩, .name "i"⟩, ⟨.point 13, .eof⟩] ∧
    tokenize "i" = .ok [⟨⟨0, 1⟩, .name "i"⟩, ⟨.point 1, .eof⟩] ∧
    tokenize "i\n--\n'" = .error ⟨.unterminatedCharacter none, ⟨5, 6⟩⟩ := by
  have hnumber : tokenize "i -- 1\n2" =
      .ok ([⟨⟨0, 1⟩, .name "i"⟩, ⟨⟨7, 8⟩, .integer "2"⟩] ++ [⟨.point 8, .eof⟩]) := by
    with_unfolding_all rfl
  have hname : tokenize "i" = .ok [⟨⟨0, 1⟩, .name "i"⟩, ⟨.point 1, .eof⟩] := by
    with_unfolding_all rfl
  have hpoint : tokenize ".5 i" = .ok [⟨⟨0, 1⟩, .mark .dot⟩, ⟨⟨1, 2⟩, .integer "5"⟩,
      ⟨⟨3, 4⟩, .name "i"⟩, ⟨.point 4, .eof⟩] := by
    with_unfolding_all rfl
  have hfault : tokenize "--\n'" = .error ⟨.unterminatedCharacter none, ⟨3, 4⟩⟩ := by
    with_unfolding_all rfl
  obtain ⟨body, hbody, -, hwhole⟩ := tokenize_by_lines hnumber ".5 i"
  obtain ⟨_, _, -, hwhole'⟩ := tokenize_by_lines hname "--\n'"
  rw [hpoint, ← (List.append_inj' hbody rfl).1] at hwhole
  rw [hfault] at hwhole'
  exact ⟨hnumber, hwhole, hname, hwhole'⟩

end BisayaLang
