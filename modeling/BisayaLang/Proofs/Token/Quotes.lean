/-
**Typographic quotes are only a spelling.**

A text may be written with typographic quotes or with plain ones, and both have the same tokens.  A
typographic quote takes three bytes and a plain one takes one, so that everything behind it moves; the
places in the plain text are found by counting the bytes of the plain characters instead.

The scanner compares no offsets but its own: whether `--` stands right behind a name is kept as a flag.
So the scanner of the plain text goes along with the one of the text, step by step, and the offset of the
one is at every moment the image of the offset of the other.

Main definitions:

* `BisayaLang.plainQuotes` — the text with plain quotes;
* `BisayaLang.plainOffset` — where an offset of the text comes to in the plain text;
* `BisayaLang.Scanner.Alongside` — a scanner of the plain text stands where one of the text does.

Main results:

* `BisayaLang.recognise_plainText` — a text and its plain form start with the same token, or the same fault;
* `BisayaLang.Scanner.Alongside.next`, `BisayaLang.Scanner.Alongside.scan` — one step of both scanners, and
  all of them;
* `BisayaLang.tokenize_plainQuotes` — **a text and its plain form have the same tokens**, at corresponding
  places, or the same fault.
-/

import BisayaLang.Proofs.Token.Viewing

set_option relaxedAutoImplicit false
set_option autoImplicit false

namespace BisayaLang

open Text

/-! ### Places in the plain text -/

/-- The text with every typographic quote written as the plain one. -/
def plainQuotes (text : String) : String := text.map foldQuote

theorem toList_plainQuotes (text : String) : (plainQuotes text).toList = text.toList.map foldQuote :=
  String.toList_map

/-- Where an offset of the text comes to in the plain text: the bytes of the characters before it are
counted as those of plain ones. -/
def plainOffset : List Char → Nat → Nat
  | [], n => n
  | c :: cs, n => if n = 0 then 0 else (foldQuote c).utf8Size + plainOffset cs (n - c.utf8Size)

/-- Behind some characters of the text stands what in the plain text stands behind their plain forms. -/
theorem plainOffset_byteLength (front rest : List Char) :
    plainOffset (front ++ rest) (byteLength front) = byteLength (front.map foldQuote) := by
  induction front with
  | nil => cases rest <;> rfl
  | cons c front ih =>
      have hpos := c.utf8Size_pos
      rw [List.cons_append, plainOffset, byteLength_cons, if_neg (by omega), Nat.add_sub_cancel_left, ih]
      rfl

/-- The span whose ends are the images of those of another. -/
def Span.image (f : Nat → Nat) (s : Span) : Span := ⟨f s.start, f s.stop⟩

/-- The token at the image of its place. -/
def Spanned.image (f : Nat → Nat) (t : Spanned) : Spanned := ⟨t.span.image f, t.token⟩

/-- The error at the image of its place. -/
def LexError.image (f : Nat → Nat) (e : LexError) : LexError := ⟨e.fault, e.span.image f⟩

/-! ### One token -/

/-- A run of characters of a class that holds all quotes or none. -/
theorem runs_plain {p : Char → Bool} (hp : (fun c => p (foldQuote c)) = p) (cs : List Char) :
    (cs.map foldQuote).takeWhile p = (cs.takeWhile p).map foldQuote ∧
      (cs.map foldQuote).dropWhile p = (cs.dropWhile p).map foldQuote := by
  have hclass : p ∘ foldQuote = p := hp
  rw [List.takeWhile_map, List.dropWhile_map, hclass]
  exact ⟨rfl, rfl⟩

/-- A run of characters of a class without quotes stays as it is. -/
theorem takeWhile_plain {p : Char → Bool} (hp : (fun c => p (foldQuote c)) = p)
    (hquote : ∀ {c : Char}, p c = true → foldQuote c = c) (cs : List Char) :
    (cs.map foldQuote).takeWhile p = cs.takeWhile p := by
  rw [(runs_plain hp cs).1]
  exact map_foldQuote fun c hc => hquote (mem_takeWhile hc)

theorem digits_plain (cs : List Char) :
    (cs.map foldQuote).takeWhile isDigit = cs.takeWhile isDigit :=
  takeWhile_plain isDigit_foldQuote (fun h => (foldQuote_of_digit h).1) cs

theorem foldQuote_eq_dot {c : Char} (h : foldQuote c = '.') : c = '.' := by
  rcases foldQuote_cases c with hc | rfl | rfl | rfl | rfl
  · exact hc ▸ h
  all_goals exact absurd h (by decide)

theorem readNumber_plain (cs : List Char) :
    Token.readNumber (cs.map foldQuote) = Token.readNumber cs := by
  unfold Token.readNumber
  rw [digits_plain, (runs_plain isDigit_foldQuote cs).2]
  match cs.dropWhile isDigit with
  | [] => rfl
  | [c] => simp
  | c :: d :: rest =>
      by_cases hc : c = '.'
      · subst hc
        have hfraction := digits_plain (d :: rest)
        have hd : isDigit (foldQuote d) = isDigit d := congrFun isDigit_foldQuote d
        rw [List.map_cons] at hfraction
        simp only [List.map_cons, show foldQuote '.' = '.' from rfl, hd, hfraction]
      · have hc' : foldQuote c ≠ '.' := fun h => hc (foldQuote_eq_dot h)
        simp [hc, hc']

theorem doubleQuote_foldQuote :
    (fun c => foldQuote (foldQuote c) != '"') = fun c => foldQuote c != '"' := by
  funext c
  rw [foldQuote_foldQuote]

theorem readString_plain (cs : List Char) :
    Token.readString (cs.map foldQuote) = Token.readString cs := by
  obtain ⟨htake, hdrop⟩ := runs_plain (p := fun c => foldQuote c != '"') doubleQuote_foldQuote cs
  have hfold : ∀ ds : List Char, (ds.map foldQuote).map foldQuote = ds.map foldQuote := by
    intro ds
    rw [List.map_map]
    exact List.map_congr_left fun c _ => foldQuote_foldQuote c
  unfold Token.readString
  rw [htake, hdrop]
  cases cs.dropWhile fun c => foldQuote c != '"' with
  | nil => simp
  | cons q rest => simp [hfold]

theorem readCharacter_plain (cs : List Char) :
    Token.readCharacter (cs.map foldQuote) = Token.readCharacter cs := by
  match cs with
  | [] => rfl
  | [c] => simp only [List.map_cons, List.map_nil, Token.readCharacter, foldQuote_foldQuote]
  | c :: q :: rest => simp only [List.map_cons, Token.readCharacter, foldQuote_foldQuote]

theorem readWord_plain (cs : List Char) : Token.readWord (cs.map foldQuote) = Token.readWord cs := by
  unfold Token.readWord
  rw [takeWhile_plain continuesName_foldQuote (fun h => (foldQuote_of_continuesName h).1)]

theorem startsName_foldQuote : (fun c => startsName (foldQuote c)) = startsName :=
  class_foldQuote (by decide +kernel)

/-- A character that is no quote at all stays as it is. -/
theorem foldQuote_eq_self {c : Char} (hdouble : foldQuote c ≠ '"') (hsingle : foldQuote c ≠ '\'') :
    foldQuote c = c := by
  rcases foldQuote_cases c with hc | rfl | rfl | rfl | rfl
  · exact hc
  · exact absurd rfl hsingle
  · exact absurd rfl hsingle
  · exact absurd rfl hdouble
  · exact absurd rfl hdouble

/-- **A text and its plain form start with the same token**, or the same fault. -/
theorem recognise_plainText (glued : Bool) (cs : List Char) :
    Token.recognise glued (cs.map foldQuote) = Token.recognise glued cs := by
  cases cs with
  | nil => rfl
  | cons c cs =>
      have hnumber := readNumber_plain (c :: cs)
      have hword := readWord_plain (c :: cs)
      have hdigit : isDigit (foldQuote c) = isDigit c := congrFun isDigit_foldQuote c
      have hletter : startsName (foldQuote c) = startsName c := congrFun startsName_foldQuote c
      rw [List.map_cons] at hnumber hword ⊢
      simp only [Token.recognise, foldQuote_foldQuote, readString_plain, readCharacter_plain, hdigit,
        hletter, hnumber, hword, List.head?_map, symbol?_foldQuote]
      split
      · rfl
      rename_i hdouble
      split
      · rfl
      rename_i hsingle
      rw [foldQuote_eq_self hdouble hsingle]

/-! ### Blanks and comments -/

theorem afterTrivia_plain (comment : Bool) (cs : List Char) :
    afterTrivia comment (cs.map foldQuote) = (afterTrivia comment cs).map foldQuote := by
  induction cs generalizing comment with
  | nil => cases comment <;> rfl
  | cons c cs ih =>
      cases comment with
      | true =>
          have hline : (fun c => foldQuote c != '\n') = (· != '\n') :=
            class_foldQuote (p := (· != '\n')) (by decide)
          rw [List.map_cons, afterTrivia, afterTrivia, show (foldQuote c != '\n') = _ from congrFun hline c]
          exact ih _
      | false =>
          have hspace : isSpace (foldQuote c) = isSpace c := congrFun isSpace_foldQuote c
          have hdash : (cs.map foldQuote).head? = some '-' ↔ cs.head? = some '-' := by
            cases cs <;> simp [foldQuote_eq_dash]
          simp only [List.map_cons, afterTrivia, hspace, hdash, foldQuote_eq_dash]
          split
          · exact ih false
          · split
            · exact ih true
            · rfl

theorem decrementAhead_plain (glued : Bool) (cs : List Char) :
    decrementAhead glued (cs.map foldQuote) = decrementAhead glued cs := by
  have hdash : ∀ c : Char, (foldQuote c == '-') = (c == '-') := by
    intro c
    rw [Bool.eq_iff_iff, beq_iff_eq, beq_iff_eq, foldQuote_eq_dash]
  match cs with
  | [] => rfl
  | [c] => simp [decrementAhead]
  | c :: d :: cs => simp [decrementAhead, hdash]

theorem nextText_plain (glued : Bool) (cs : List Char) :
    nextText glued (cs.map foldQuote) = (nextText glued cs).map foldQuote := by
  unfold nextText
  rw [decrementAhead_plain, afterTrivia_plain]
  split <;> rfl

/-! ### Two scanners -/

/-- The scanner `p` of the plain text stands where the scanner `s` of the text does, behind the same
characters. -/
def Scanner.Alongside (text : List Char) (s p : Scanner) : Prop :=
  ∃ past, text = past ++ s.rest ∧ s.offset = byteLength past ∧
    p = ⟨s.rest.map foldQuote, byteLength (past.map foldQuote), s.glued⟩

namespace Scanner.Alongside

variable {text : List Char} {s p : Scanner}

/-- **One step of both scanners** finds the same token, or the same fault, at corresponding places. -/
theorem next (h : Alongside text s p) :
    match s.next with
    | (.ok t, s') => ∃ p', p.next = (.ok (t.image (plainOffset text)), p') ∧ Alongside text s' p'
    | (.error e, _) => ∃ p', p.next = (.error (e.image (plainOffset text)), p') := by
  obtain ⟨past, htext, hoffset, rfl⟩ := h
  obtain ⟨gap, hgap, -, hcases⟩ := s.next_cases
  obtain ⟨gap', hgap', -, hcases'⟩ :=
    (Scanner.mk (s.rest.map foldQuote) (byteLength (past.map foldQuote)) s.glued).next_cases
  simp only [nextText_plain, decrementAhead_plain, recognise_plainText] at hgap' hcases'
  -- the gap of the plain text is the plain form of the gap
  rw [hgap, List.map_append, ← hgap] at hgap'
  obtain rfl := List.append_cancel_right hgap'
  generalize nextText s.glued s.rest = ahead at *
  -- every place of the step lies behind some characters of the text
  have hplace : ∀ k, plainOffset text (s.offset + byteLength gap + byteLength (ahead.take k)) =
      byteLength (past.map foldQuote) + byteLength (gap.map foldQuote) +
        byteLength ((ahead.map foldQuote).take k) := by
    intro k
    have hsplit : text = (past ++ gap ++ ahead.take k) ++ ahead.drop k := by
      rw [htext, hgap]
      simp
    rw [hoffset, ← byteLength_append, ← byteLength_append, hsplit, plainOffset_byteLength]
    simp [List.map_take, Nat.add_assoc]
  have hstart := hplace 0
  simp only [List.take_zero, byteLength_nil, Nat.add_zero] at hstart
  cases hrec : Token.recognise (decrementAhead s.glued s.rest) ahead with
  | token t n =>
      rw [hrec] at hcases hcases'
      obtain ⟨stop, rfl, hnext⟩ := hcases
      obtain ⟨stop', rfl, hnext'⟩ := hcases'
      rw [hnext]
      refine ⟨_, ?_, past ++ gap ++ ahead.take n, ?_, ?_, rfl⟩
      · rw [hnext', Spanned.image, Span.image, hstart, hplace]
        simp [List.map_drop, List.map_take, Nat.add_assoc]
      · rw [htext, hgap]
        simp
      · rw [hoffset, byteLength_append, byteLength_append]
  | fault f reported consumed =>
      rw [hrec] at hcases hcases'
      rw [hcases]
      simp only [LexError.image, Span.image, hstart, hplace]
      exact ⟨_, hcases'⟩

/-- **All steps of both scanners** find the same tokens, and the same fault, at corresponding places. -/
theorem scan (h : Alongside text s p) :
    p.scan.tokens = s.scan.tokens.map (Spanned.image (plainOffset text)) ∧
      p.scan.error = s.scan.error.map (LexError.image (plainOffset text)) := by
  induction s using Scanner.scan.induct generalizing p with
  | case1 s e s' hnext =>
      have hstep := h.next
      rw [hnext] at hstep
      obtain ⟨p', hp⟩ := hstep
      rw [scan_of_fault hnext, scan_of_fault hp]
      exact ⟨rfl, rfl⟩
  | case2 s t s' hnext ht =>
      have hstep := h.next
      rw [hnext] at hstep
      obtain ⟨p', hp, -⟩ := hstep
      rw [scan_of_next hnext, scan_of_next hp, if_pos ht,
        if_pos (show (t.image (plainOffset text)).token = .eof from ht)]
      exact ⟨rfl, rfl⟩
  | case3 s t s' hnext ht ih =>
      have hstep := h.next
      rw [hnext] at hstep
      obtain ⟨p', hp, halong⟩ := hstep
      obtain ⟨htokens, herror⟩ := ih halong
      rw [scan_of_next hnext, scan_of_next hp, if_neg ht,
        if_neg (show (t.image (plainOffset text)).token ≠ .eof from ht)]
      exact ⟨congrArg _ htokens, herror⟩

end Scanner.Alongside

/-! ### The whole text -/

/-- **A text and its plain form have the same tokens**, at corresponding places, or the same fault.  The
offset behind some characters of the text corresponds to the one behind their plain forms. -/
theorem tokenize_plainQuotes (text : String) :
    (∀ front rest, text.toList = front ++ rest →
      plainOffset text.toList (byteLength front) = byteLength (front.map foldQuote)) ∧
    tokenize (plainQuotes text) = match tokenize text with
      | .ok ts => .ok (ts.map (Spanned.image (plainOffset text.toList)))
      | .error e => .error (e.image (plainOffset text.toList)) := by
  refine ⟨fun front rest h => by rw [h, plainOffset_byteLength], ?_⟩
  have halong : Scanner.Alongside text.toList (.start text.toList)
      (.start (plainQuotes text).toList) := ⟨[], rfl, rfl, by rw [toList_plainQuotes]; rfl⟩
  obtain ⟨htokens, herror⟩ := halong.scan
  unfold tokenize Scan.result
  rw [htokens, herror]
  cases (Scanner.start text.toList).scan.error <;> rfl

end BisayaLang
