/-
**Texts that fit into 32 bits.**

In a text of less than 2 ^ 32 bytes an offset of 32 bits is as good as any: no two places of the text have
the same one.  So the tokens are the same, with the same spans, and so is the program.

Main definitions:

* `BisayaLang.Scanner.narrow` — a scanner with its offsets cut down to 32 bits.

Main results:

* `BisayaLang.Scanner.next_narrow`, `BisayaLang.Scanner.scan_narrow` — both scanners read the same tokens;
* `BisayaLang.tokenizeNarrow_eq` — **a text that fits has the same tokens with offsets of 32 bits**.
-/

import BisayaLang.Proofs.Token.Tiling

set_option relaxedAutoImplicit false
set_option autoImplicit false

namespace BisayaLang

/-! ### Between two tokens -/

/-- No `--` is left behind blanks and comments. -/
theorem not_dashes_afterTrivia (comment : Bool) (cs : List Char) :
    ¬['-', '-'] <+: afterTrivia comment cs := by
  induction cs generalizing comment with
  | nil => cases comment <;> simp [afterTrivia]
  | cons c cs ih =>
      cases comment with
      | true => exact ih _
      | false =>
          rw [afterTrivia]
          split
          · exact ih _
          split
          · exact ih _
          · rename_i hdashes
            rintro ⟨rest, hrest⟩
            obtain ⟨rfl, rfl⟩ := List.cons.inj hrest
            exact hdashes ⟨rfl, rfl⟩

/-- Behind the end of the last name blanks and comments are skipped as without it. -/
theorem skip_narrow {nameEnd : Option UInt32} (comment : Bool) (offset : Nat) (cs : List Char)
    (hsize : offset + byteLength cs < UInt32.size) (hname : ∀ e, nameEnd = some e → e.toNat < offset) :
    NarrowScanner.skip nameEnd comment (.ofNat offset) cs =
      (.ofNat (Scanner.skipTrivia comment offset cs).1,
        (Scanner.skipTrivia comment offset cs).2) := by
  induction cs generalizing comment offset with
  | nil => cases comment <;> rfl
  | cons c cs ih =>
      rw [byteLength_cons] at hsize
      have hlater : ∀ comment, NarrowScanner.skip nameEnd comment (.ofNat offset + .ofNat c.utf8Size) cs =
          (.ofNat (Scanner.skipTrivia comment (offset + c.utf8Size) cs).1,
            (Scanner.skipTrivia comment (offset + c.utf8Size) cs).2) := by
        intro comment
        rw [← UInt32.ofNat_add]
        exact ih _ _ (by omega) fun e he => Nat.lt_of_lt_of_le (hname e he) (Nat.le_add_right _ _)
      have hhere : nameEnd ≠ some (.ofNat offset) := by
        intro h
        have hlt := hname _ h
        rw [UInt32.toNat_ofNat_of_lt' (show offset < UInt32.size by omega)] at hlt
        exact Nat.lt_irrefl _ hlt
      cases comment with
      | true => exact hlater _
      | false =>
          rw [NarrowScanner.skip, Scanner.skipTrivia]
          simp only [hhere, ne_eq, not_false_eq_true, and_true, hlater]
          split
          · rfl
          · split <;> rfl

/-- Right behind a name a blank is skipped first, and then the name ended before. -/
theorem skip_narrow_behind_name {offset : Nat} {cs : List Char}
    (hsize : offset + byteLength cs < UInt32.size) (hdec : decrementAhead true cs = false) :
    NarrowScanner.skip (some (.ofNat offset)) false (.ofNat offset) cs =
      (.ofNat (Scanner.skipTrivia false offset cs).1, (Scanner.skipTrivia false offset cs).2) := by
  cases cs with
  | nil => rfl
  | cons c cs =>
      rw [byteLength_cons] at hsize
      have hdashes : ¬(c = '-' ∧ cs.head? = some '-') := by
        rintro ⟨rfl, hhead⟩
        simp [decrementAhead, hhead] at hdec
      rw [NarrowScanner.skip, Scanner.skipTrivia]
      split
      · rw [← UInt32.ofNat_add]
        refine skip_narrow false _ cs (by omega) ?_
        rintro _ ⟨⟩
        rw [UInt32.toNat_ofNat_of_lt' (show offset < UInt32.size by omega)]
        exact Nat.lt_add_of_pos_right c.utf8Size_pos
      · rw [if_neg fun hcomment => hdashes ⟨hcomment.1, hcomment.2.1⟩]

/-- The step of a loop is left where it stands. -/
theorem skip_narrow_decrement {offset : UInt32} {cs : List Char} (h : decrementAhead true cs = true) :
    NarrowScanner.skip (some offset) false offset cs = (offset, cs) := by
  match cs with
  | [] => cases h
  | [c] => simp [decrementAhead] at h
  | c :: d :: cs =>
      obtain ⟨rfl, rfl⟩ : c = '-' ∧ d = '-' := by simpa [decrementAhead] using h
      simp [NarrowScanner.skip, isSpace]

namespace Scanner

/-- A scanner with its offsets cut down to 32 bits. -/
def narrow (s : Scanner) : NarrowScanner :=
  ⟨s.rest, .ofNat s.offset, if s.glued then some (.ofNat s.offset) else none⟩

theorem skip_of_decrement {s : Scanner} (h : decrementAhead s.glued s.rest = true) :
    s.skip = (s.offset, s.rest) := if_pos h

theorem skip_of_trivia {s : Scanner} (h : decrementAhead s.glued s.rest = false) :
    s.skip = skipTrivia false s.offset s.rest := by
  rw [skip, show s.atDecrement = false from h]
  rfl

/-- The end of the text stays where it is. -/
theorem skip_total (s : Scanner) :
    s.skip.1 + byteLength s.skip.2 = s.offset + byteLength s.rest := by
  cases h : decrementAhead s.glued s.rest with
  | true => rw [skip_of_decrement h]
  | false => rw [skip_of_trivia h, skipTrivia_snd, skipTrivia_fst]

/-- **Both scanners skip the same blanks and comments**, unless the text is too long. -/
theorem narrow_skip (s : Scanner) (h : s.offset + byteLength s.rest < UInt32.size) :
    NarrowScanner.skip s.narrow.nameEnd false s.narrow.offset s.rest =
      (.ofNat s.skip.1, s.skip.2) := by
  cases hg : s.glued with
  | false =>
      have hname : s.narrow.nameEnd = none := by simp [narrow, hg]
      rw [hname, skip_of_trivia (by rw [hg]; rfl)]
      exact skip_narrow false s.offset s.rest h (by simp)
  | true =>
      have hname : s.narrow.nameEnd = some (.ofNat s.offset) := by simp [narrow, hg]
      rw [hname]
      cases hdec : decrementAhead true s.rest with
      | true =>
          rw [skip_of_decrement (by rw [hg, hdec])]
          exact skip_narrow_decrement hdec
      | false =>
          rw [skip_of_trivia (by rw [hg, hdec])]
          exact skip_narrow_behind_name h hdec

/-- Both scanners recognise the same token behind that. -/
theorem narrow_recognise (s : Scanner) :
    Token.recognise (s.narrow.nameEnd == some (.ofNat s.skip.1)) s.skip.2 =
      Token.recognise s.atDecrement s.skip.2 := by
  cases hdec : decrementAhead s.glued s.rest with
  | true =>
      have hg : s.glued = true := by
        revert hdec
        cases s.glued <;> simp [decrementAhead]
      have hflag : (s.narrow.nameEnd == some (.ofNat s.skip.1)) = s.atDecrement := by
        rw [skip_of_decrement hdec, show s.atDecrement = true from hdec]
        simp [narrow, hg]
      rw [hflag]
  | false =>
      refine recognise_glued fun hdashes => ?_
      rw [skip_of_trivia hdec, skipTrivia_snd] at hdashes
      exact absurd hdashes (not_dashes_afterTrivia _ _)

end Scanner

/-! ### One token -/

theorem advance_narrow (n offset : Nat) (cs : List Char) :
    NarrowScanner.advance n (.ofNat offset) cs =
      (.ofNat (Scanner.advance n offset cs).1, (Scanner.advance n offset cs).2) := by
  induction n generalizing offset cs with
  | zero => rfl
  | succ n ih =>
      cases cs with
      | nil => rfl
      | cons c cs =>
          rw [NarrowScanner.advance, Scanner.advance, ← UInt32.ofNat_add]
          exact ih _ _

theorem advance_fst_le (n offset : Nat) (cs : List Char) :
    (Scanner.advance n offset cs).1 ≤ offset + byteLength cs := by
  have hle := byteLength_le_of_front (List.take_prefix n cs)
  rw [advance_fst]
  omega

/-- **Both scanners read the same token**, unless the text is too long. -/
theorem Scanner.next_narrow (s : Scanner) (h : s.offset + byteLength s.rest < UInt32.size) :
    s.narrow.next = s.next.1.map fun t => (t, s.next.2.narrow) := by
  have hskip := s.narrow_skip h
  have hrec := s.narrow_recognise
  have htotal := s.skip_total
  unfold NarrowScanner.next next
  rw [show s.narrow.rest = s.rest from rfl, hskip]
  generalize s.skip = skipped at hrec htotal
  obtain ⟨offset, text⟩ := skipped
  simp only at hrec htotal ⊢
  have hstart : (UInt32.ofNat offset).toNat = offset :=
    UInt32.toNat_ofNat_of_lt' (show offset < UInt32.size by omega)
  have hstop : ∀ n, (UInt32.ofNat (advance n offset text).1).toNat = (advance n offset text).1 := fun n =>
    UInt32.toNat_ofNat_of_lt' (Nat.lt_of_le_of_lt (advance_fst_le n offset text) (htotal ▸ h))
  rw [hrec]
  cases Token.recognise s.atDecrement text with
  | token t length =>
      simp only [advance_narrow, hstart, hstop]
      rfl
  | fault f reported consumed =>
      simp only [advance_narrow, hstart, hstop]
      rfl

/-! ### All tokens -/

namespace NarrowScanner

theorem scan_of_fault {s : NarrowScanner} {e : LexError} (h : s.next = .error e) :
    s.scan = .error e := by
  rw [scan]
  split
  · rename_i h'
    rw [h] at h'
    cases h'
    rfl
  · rename_i h'
    rw [h] at h'
    cases h'

theorem scan_of_next {s s' : NarrowScanner} {t : Spanned} (h : s.next = .ok (t, s')) :
    s.scan = if t.token = .eof then .ok [t] else (t :: ·) <$> s'.scan := by
  rw [scan]
  split
  · rename_i h'
    rw [h] at h'
    cases h'
  · rename_i h'
    rw [h] at h'
    cases h'
    split <;> rfl

end NarrowScanner

/-- **Both scanners read the same tokens**, unless the text is too long. -/
theorem Scanner.scan_narrow (s : Scanner) (h : s.offset + byteLength s.rest < UInt32.size) :
    s.narrow.scan = s.scan.result := by
  induction s using Scanner.scan.induct with
  | case1 s e s' hnext =>
      have hsame := s.next_narrow h
      rw [hnext] at hsame
      rw [NarrowScanner.scan_of_fault hsame, scan_of_fault hnext]
      rfl
  | case2 s t s' hnext ht =>
      have hsame := s.next_narrow h
      rw [hnext] at hsame
      rw [NarrowScanner.scan_of_next hsame, scan_of_next hnext, if_pos ht, if_pos ht]
      rfl
  | case3 s t s' hnext ht ih =>
      have hsame := s.next_narrow h
      rw [hnext] at hsame
      obtain ⟨gap, lexeme, hrest, -, -, -, -, hoffset, -⟩ := next_token hnext ht
      have hbytes := congrArg byteLength hrest
      rw [byteLength_append, byteLength_append] at hbytes
      rw [NarrowScanner.scan_of_next hsame, scan_of_next hnext, if_neg ht, if_neg ht]
      simp only
      rw [ih (by omega)]
      unfold Scan.result
      cases s'.scan.error <;> rfl

namespace NarrowScanner

/-- What is read depends on the next token only. -/
theorem scan_congr {s s' : NarrowScanner} (h : s.next = s'.next) : s.scan = s'.scan := by
  cases hnext : s'.next with
  | error e => rw [scan_of_fault (h.trans hnext), scan_of_fault hnext]
  | ok found => rw [scan_of_next (h.trans hnext), scan_of_next hnext]

theorem skip_blanks (nameEnd : Option UInt32) (n : Nat) (offset : UInt32) (cs : List Char) :
    skip nameEnd false offset (List.replicate n ' ' ++ cs) =
      skip nameEnd false (offset + .ofNat n) cs := by
  induction n generalizing offset with
  | zero => simp
  | succ n ih =>
      have hsize : UInt32.ofNat (' ').utf8Size + .ofNat n = .ofNat (n + 1) := by
        rw [← UInt32.ofNat_add, Nat.add_comm]
        rfl
      rw [List.replicate_succ, List.cons_append, skip, if_pos (show isSpace ' ' = true from rfl), ih,
        UInt32.add_assoc, hsize]

/-- Any number of blanks only moves the offset. -/
theorem scan_blanks (nameEnd : Option UInt32) (n : Nat) (offset : UInt32) (cs : List Char) :
    scan ⟨List.replicate n ' ' ++ cs, offset, nameEnd⟩ = scan ⟨cs, offset + .ofNat n, nameEnd⟩ := by
  refine scan_congr ?_
  unfold next
  simp only [skip_blanks]

end NarrowScanner

/-- **A text that fits has the same tokens with offsets of 32 bits**, or the same fault. -/
theorem tokenizeNarrow_eq {text : String} (h : text.utf8ByteSize < UInt32.size) :
    tokenizeNarrow text = tokenize text := by
  refine (Scanner.start text.toList).scan_narrow ?_
  show 0 + byteLength text.toList < UInt32.size
  rw [byteLength_toList]
  omega

/-- It is also the same program. -/
theorem parseNarrow_eq {text : String} (h : text.utf8ByteSize < UInt32.size) :
    parseNarrow text = parseProgram text := by
  unfold parseNarrow parseProgram Scan.parse
  rw [tokenizeNarrow_eq h]
  rfl

end BisayaLang
