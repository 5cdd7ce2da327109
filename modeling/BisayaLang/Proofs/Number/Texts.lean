/-
**Numbers read back from their texts.**

The decimal that a number is written with is one that is rounded to the number, whichever grid it was found
on.  A text is written from the digits of that decimal and the place of the point, and what is read from
it is the same decimal, or one with more zeros at its end.  So every number is read back from its text, in
any layout.

Main results:

* `BisayaLang.Number.Decimal.magnitude_zeros` — zeros at the end of the digits do not count;
* `BisayaLang.Number.magnitude_shortest` — **the shortest decimal is rounded to the number**;
* `BisayaLang.Number.readDecimal?_point`, `BisayaLang.Number.readDecimal?_whole` — what is read from digits with
  and without a point;
* `BisayaLang.Number.readFloat?_write` — **a number is read back from its text**;
* `BisayaLang.Number.readInt?_toString` — so is an integer of 64 bits.
-/

import BisayaLang.Number.Layout
import BisayaLang.Number.Reading
import BisayaLang.Proofs.Number.Rounding
import BisayaLang.Text.Blank

set_option relaxedAutoImplicit false
set_option autoImplicit false

namespace BisayaLang.Number

open BisayaLang.Text

/-! ### Decimals -/

theorem two_pow_le (k : Nat) : 2 ^ (3 * k) ≤ 10 ^ k := by
  rw [Nat.pow_mul]
  exact Nat.pow_le_pow_left (by decide) k

theorem ten_pow_le {k j : Nat} (h : k ≤ 2 * j) : 10 ^ k ≤ 5 ^ (k + j) := by
  calc 10 ^ k = 5 ^ k * 2 ^ k := Nat.mul_pow 5 2 k
    _ ≤ 5 ^ k * 2 ^ (2 * j) := Nat.mul_le_mul_left _ (Nat.pow_le_pow_right (by decide) h)
    _ = 5 ^ k * 4 ^ j := by rw [Nat.pow_mul]
    _ ≤ 5 ^ k * 5 ^ j := Nat.mul_le_mul_left _ (Nat.pow_le_pow_left (by decide) j)
    _ = 5 ^ (k + j) := (Nat.pow_add ..).symm

theorem digitCount_le_iff {n k : Nat} (h : 0 < k) : digitCount n ≤ k ↔ n < 10 ^ k :=
  Nat.length_toDigits_le_iff (by decide) h

theorem digitCount_mul_ten {n : Nat} (h : 0 < n) : digitCount (n * 10) = digitCount n + 1 := by
  have happend := Nat.toDigits_append_toDigits (b := 10) (d := 0) (by decide) h (by decide)
  rw [Nat.add_zero, Nat.mul_comm] at happend
  rw [digitCount, digitCount, ← happend, List.length_append]
  rfl

namespace Decimal

/-- The value is the same with one more zero. -/
theorem magnitudeBits_ratio (n : Nat) (e : Int) :
    magnitudeBits (ratio ⟨n * 10, e - 1⟩).1 (ratio ⟨n * 10, e - 1⟩).2 =
      magnitudeBits (ratio ⟨n, e⟩).1 (ratio ⟨n, e⟩).2 := by
  cases e with
  | ofNat k =>
      cases k with
      | zero =>
          show magnitudeBits (n * 10) (10 * 1) = magnitudeBits (n * 1) 1
          rw [Nat.mul_comm, magnitudeBits_mul (by decide) n Nat.one_pos, Nat.mul_one]
      | succ k =>
          have he : Int.ofNat (k + 1) - 1 = Int.ofNat k := Int.add_sub_cancel (k : Int) 1
          rw [he]
          show magnitudeBits (n * 10 * 10 ^ k) 1 = magnitudeBits (n * 10 ^ (k + 1)) 1
          rw [Nat.pow_succ', Nat.mul_assoc]
  | negSucc k =>
      have he : Int.negSucc k - 1 = Int.negSucc (k + 1) := by omega
      rw [he]
      show magnitudeBits (n * 10) (10 ^ (k + 2)) = magnitudeBits n (10 ^ (k + 1))
      rw [Nat.mul_comm, Nat.pow_succ' (m := 10) (n := k + 1),
        magnitudeBits_mul (by decide) n (Nat.pow_pos (by decide))]

/-- **One more zero** at the end of the digits, and the exponent one less. -/
theorem magnitude_zero (n : Nat) (e : Int) :
    magnitude ⟨n * 10, e - 1⟩ = magnitude ⟨n, e⟩ := by
  by_cases hn : n = 0
  · rw [magnitude, magnitude, if_pos hn, if_pos (by rw [hn])]
  · have hplace : (digitCount (n * 10) : Int) + (e - 1) = (digitCount n : Int) + e := by
      rw [digitCount_mul_ten (Nat.pos_of_ne_zero hn)]
      omega
    simp only [magnitude, if_neg hn, if_neg (show n * 10 ≠ 0 by omega), hplace,
      magnitudeBits_ratio]

/-- **Zeros at the end of the digits do not count.** -/
theorem magnitude_zeros (n : Nat) (e : Int) (z : Nat) :
    magnitude ⟨n * 10 ^ z, e - z⟩ = magnitude ⟨n, e⟩ := by
  induction z with
  | zero => simp
  | succ z ih =>
      have he : e - ((z + 1 : Nat) : Int) = e - z - 1 := by omega
      rw [Nat.pow_succ, ← Nat.mul_assoc, he, magnitude_zero, ih]

theorem magnitude_stripF (fuel : Nat) (d : Decimal) : (stripF fuel d).magnitude = d.magnitude := by
  induction fuel generalizing d with
  | zero => rfl
  | succ fuel ih =>
      rw [stripF]
      split
      · rename_i h
        rw [ih, ← magnitude_zero]
        have hdigits : d.digits / 10 * 10 = d.digits := by omega
        rw [hdigits, Int.add_sub_cancel]
      · rfl

theorem magnitude_strip (d : Decimal) : d.strip.magnitude = d.magnitude := magnitude_stripF _ d

/-- Only decimals far outside the range of the numbers are not rounded. -/
theorem magnitude_eq {d : Decimal} (hlow : -400 ≤ (digitCount d.digits : Int) + d.exponent)
    (hhigh : (digitCount d.digits : Int) + d.exponent ≤ 400) :
    d.magnitude = magnitudeBits d.ratio.1 d.ratio.2 := by
  by_cases hd : d.digits = 0
  · have hzero : d.ratio.1 = 0 := by
      rw [ratio]
      cases d.exponent with
      | ofNat n => exact (congrArg (· * tenTo n) hd).trans (Nat.zero_mul _)
      | negSucc n => exact hd
    rw [magnitude, if_pos hd, magnitudeBits, if_pos hzero]
  · rw [magnitude, if_neg hd]
    simp only
    rw [if_neg (by omega), if_neg (by omega)]

end Decimal

/-! ### The shortest decimal -/

/-- What the search finds is rounded to the number. -/
theorem magnitude_searchF {bits num den : Nat} {place : Int} {grids count : Nat} {d : Decimal}
    (h : searchF bits num den place grids count = some d) : d.magnitude = bits := by
  induction grids generalizing count with
  | zero => cases h
  | succ grids ih =>
      rw [searchF] at h
      split at h
      · rename_i found hfound
        cases h
        simpa using List.find?_some hfound
      · exact ih h

/-- So is the exact value, since its first digit is not far from the point. -/
theorem magnitude_exactDecimal {m : Nat} {e : Int} (h : InRange m e) (hm : 0 < m) :
    (exactDecimal m e).magnitude = magnitudeBits (scale m 1 e).1 (scale m 1 e).2 := by
  obtain ⟨hmantissa, hleast, hgreatest, -⟩ := h
  cases e with
  | ofNat n =>
      have hn : n ≤ 971 := Int.ofNat_le.1 hgreatest
      have hcount : digitCount (m * 2 ^ n) ≤ 400 := by
        rw [digitCount_le_iff (by decide)]
        calc m * 2 ^ n < 2 ^ 53 * 2 ^ n :=
              Nat.mul_lt_mul_of_pos_right hmantissa (Nat.pow_pos (by decide))
          _ = 2 ^ (53 + n) := (Nat.pow_add ..).symm
          _ ≤ 10 ^ 400 := (Nat.pow_le_pow_right (by decide) (by omega)).trans (two_pow_le 400)
      rw [exactDecimal, Decimal.magnitude_eq]
      · show magnitudeBits (m * twoTo n * 1) 1 = _
        rw [Nat.mul_one]
        rfl
      · show -400 ≤ (digitCount (m * 2 ^ n) : Int) + 0
        omega
      · show (digitCount (m * 2 ^ n) : Int) + 0 ≤ 400
        omega
  | negSucc n =>
      have hn : n + 1 ≤ 1074 := by omega
      have hhigh : digitCount (m * 5 ^ (n + 1)) ≤ 16 + (n + 1) := by
        rw [digitCount_le_iff (by omega)]
        calc m * 5 ^ (n + 1) < 10 ^ 16 * 5 ^ (n + 1) :=
              Nat.mul_lt_mul_of_pos_right (by omega) (Nat.pow_pos (by decide))
          _ ≤ 10 ^ 16 * 10 ^ (n + 1) := Nat.mul_le_mul_left _ (Nat.pow_le_pow_left (by decide) _)
          _ = 10 ^ (16 + (n + 1)) := (Nat.pow_add ..).symm
      have hlow : n + 1 ≤ digitCount (m * 5 ^ (n + 1)) + 400 := by
        by_contra hfew
        -- so few digits are those of a number below the least one
        have hpos : 0 < digitCount (m * 5 ^ (n + 1)) := Nat.length_toDigits_pos
        have hlt : m * 5 ^ (n + 1) < 10 ^ (n - 400) :=
          (digitCount_le_iff (by omega)).1 (by omega)
        have hle : 10 ^ (n - 400) ≤ 5 ^ (n + 1) := by
          have hfive := ten_pow_le (k := n - 400) (j := 401) (by omega)
          rwa [show n - 400 + 401 = n + 1 by omega] at hfive
        have hm' : 5 ^ (n + 1) ≤ m * 5 ^ (n + 1) := Nat.le_mul_of_pos_left _ hm
        omega
      rw [exactDecimal, Decimal.magnitude_eq]
      · show magnitudeBits (m * 5 ^ (n + 1)) (10 ^ (n + 1)) = magnitudeBits m (1 * 2 ^ (n + 1))
        rw [show (10 : Nat) = 5 * 2 from rfl, Nat.mul_pow, Nat.mul_comm, Nat.one_mul,
          magnitudeBits_mul (Nat.pow_pos (by decide)) m (Nat.pow_pos (by decide))]
      · show -400 ≤ (digitCount (m * 5 ^ (n + 1)) : Int) + -((n + 1 : Nat) : Int)
        omega
      · show (digitCount (m * 5 ^ (n + 1)) : Int) + -((n + 1 : Nat) : Int) ≤ 400
        omega

/-- The shortest decimal is the one that the search finds, or else the exact value. -/
theorem shortest_eq (m : Nat) (e : Int) :
    shortest m e =
      ((searchF (magnitudeBits (scale m 1 e).1 (scale m 1 e).2) (scale m 1 e).1 (scale m 1 e).2
        (leadingPlace (scale m 1 e).1 (scale m 1 e).2) 17 1).getD (exactDecimal m e)).strip := by
  unfold shortest
  simp only
  generalize searchF _ _ _ _ _ _ = found
  cases found <;> rfl

/-- **The shortest decimal is rounded to the number.** -/
theorem magnitude_shortest {m : Nat} {e : Int} (h : InRange m e) (hm : 0 < m) :
    (shortest m e).magnitude = magnitudeBits (scale m 1 e).1 (scale m 1 e).2 := by
  have hstrip := congrArg Decimal.magnitude (shortest_eq m e)
  refine hstrip.trans ((Decimal.magnitude_strip _).trans ?_)
  cases hfound : searchF _ _ _ _ _ _ with
  | some d => exact magnitude_searchF hfound
  | none => exact magnitude_exactDecimal h hm

/-! ### Digits -/

theorem ofDigits_eq (cs : List Char) : ofDigits cs = Nat.ofDigitChars 10 cs 0 := by
  have hstep : (fun n c => n * 10 + digitValue c) = fun n c => 10 * n + (c.toNat - '0'.toNat) := by
    funext n c
    rw [Nat.mul_comm]
    rfl
  rw [ofDigits, hstep, ← Nat.ofDigitChars_eq_foldl]

theorem isDigit_toDigits (n : Nat) : ∀ c ∈ Nat.toDigits 10 n, isDigit c = true := by
  intro c hc
  exact Nat.isDigit_of_mem_toDigits (by decide) (by decide) hc

theorem isDigit_zeros (z : Nat) : ∀ c ∈ List.replicate z '0', isDigit c = true := by
  intro c hc
  rw [List.eq_of_mem_replicate hc]
  decide

theorem ofDigits_toDigits (n : Nat) : ofDigits (Nat.toDigits 10 n) = n := by
  rw [ofDigits_eq, Nat.ofDigitChars_ten_toDigits]

/-- Zeros behind the digits. -/
theorem ofDigits_append_zeros (cs : List Char) (z : Nat) :
    ofDigits (cs ++ List.replicate z '0') = ofDigits cs * 10 ^ z := by
  rw [ofDigits_eq, Nat.ofDigitChars_append, Nat.ofDigitChars_replicate_zero, ← ofDigits_eq,
    Nat.mul_comm]

/-- Zeros before the digits. -/
theorem ofDigits_zeros_append (z : Nat) (cs : List Char) :
    ofDigits (List.replicate z '0' ++ cs) = ofDigits cs := by
  rw [ofDigits_eq, Nat.ofDigitChars_append, Nat.ofDigitChars_replicate_zero, Nat.mul_zero,
    ← ofDigits_eq]

theorem takeSign_digit {c : Char} (h : isDigit c = true) (cs : List Char) :
    takeSign (c :: cs) = (false, c :: cs) := by
  rw [takeSign]
  · rintro _ heq
    cases heq
    exact absurd h (by decide)
  · rintro _ heq
    cases heq
    exact absurd h (by decide)

theorem takeSign_toDigits (n : Nat) :
    takeSign (Nat.toDigits 10 n) = (false, Nat.toDigits 10 n) := by
  obtain ⟨c, cs, hcs⟩ := List.exists_cons_of_ne_nil (Nat.toDigits_ne_nil (b := 10) (n := n))
  rw [hcs]
  exact takeSign_digit (isDigit_toDigits n c (by rw [hcs]; simp)) cs

/-- The sign and the digits of an integer. -/
theorem takeSign_toString (n : Int) :
    takeSign (toString n).toList = (decide (n < 0), Nat.toDigits 10 n.natAbs) := by
  cases n with
  | ofNat n =>
      have hlist : (toString (Int.ofNat n)).toList = Nat.toDigits 10 n := Nat.toList_repr
      rw [hlist, takeSign_toDigits]
      rfl
  | negSucc n =>
      have hlist : (toString (Int.negSucc n)).toList = '-' :: Nat.toDigits 10 (n + 1) := by
        show ("-" ++ (n + 1).repr).toList = _
        rw [String.toList_append, Nat.toList_repr]
        rfl
      rw [hlist, takeSign, decide_eq_true (Int.negSucc_lt_zero n)]
      rfl

theorem signed_natAbs (n : Int) : signed (decide (n < 0)) n.natAbs = n := by
  rw [signed]
  by_cases hn : n < 0
  · rw [if_pos (decide_eq_true hn)]
    omega
  · rw [if_neg (by simpa using hn)]
    omega

/-- **An integer of 64 bits is read back from its text.** -/
theorem readInt?_toString {n : Int} (hleast : leastInt ≤ n) (hgreatest : n ≤ greatestInt) :
    readInt? (toString n).toList = some n := by
  have hdigits : Nat.toDigits 10 n.natAbs ≠ [] ∧ (Nat.toDigits 10 n.natAbs).all isDigit = true :=
    ⟨Nat.toDigits_ne_nil, List.all_eq_true.2 (isDigit_toDigits _)⟩
  rw [readInt?, takeSign_toString]
  simp only
  rw [if_pos hdigits, ofDigits_toDigits, signed_natAbs, if_pos ⟨hleast, hgreatest⟩]

/-! ### Decimals as text -/

theorem readExponent?_toString (n : Int) : readExponent? ('e' :: (toString n).toList) = some n := by
  have hdigits : Nat.toDigits 10 n.natAbs ≠ [] ∧ (Nat.toDigits 10 n.natAbs).all isDigit = true :=
    ⟨Nat.toDigits_ne_nil, List.all_eq_true.2 (isDigit_toDigits _)⟩
  rw [readExponent?, if_pos (.inl rfl), takeSign_toString]
  simp only
  rw [if_pos hdigits, ofDigits_toDigits, signed_natAbs]

/-- No digit stands first. -/
def NoDigitFirst (cs : List Char) : Prop := cs.takeWhile isDigit = [] ∧ cs.dropWhile isDigit = cs

theorem noDigitFirst_cons {c : Char} (h : isDigit c = false) (cs : List Char) :
    NoDigitFirst (c :: cs) := by
  rw [NoDigitFirst, List.takeWhile_cons, List.dropWhile_cons, h]
  exact ⟨rfl, rfl⟩

theorem takeWhile_digits {digits rest : List Char} (h : ∀ c ∈ digits, isDigit c = true)
    (hrest : NoDigitFirst rest) :
    (digits ++ rest).takeWhile isDigit = digits ∧ (digits ++ rest).dropWhile isDigit = rest := by
  rw [List.takeWhile_append_of_pos h, List.dropWhile_append_of_pos h, hrest.1, hrest.2]
  exact ⟨List.append_nil _, rfl⟩

/-- **Digits, a point, digits** and what follows them. -/
theorem readDecimal?_point (whole fraction rest : List Char) {e : Int}
    (hwhole : ∀ c ∈ whole, isDigit c = true) (hfraction : ∀ c ∈ fraction, isDigit c = true)
    (hrest : NoDigitFirst rest) (he : readExponent? rest = some e) (hne : fraction ≠ []) :
    readDecimal? (whole ++ '.' :: (fraction ++ rest)) =
      some ⟨ofDigits (whole ++ fraction), e - (fraction.length : Int)⟩ := by
  have hpoint := takeWhile_digits hwhole (noDigitFirst_cons (c := '.') (by decide) (fraction ++ rest))
  have hdigits := takeWhile_digits hfraction hrest
  rw [readDecimal?, hpoint.1, hpoint.2, takeFraction]
  simp only
  rw [hdigits.1, hdigits.2, if_neg (fun h => hne h.2), he]
  rfl

/-- **Digits without a point** and what follows them. -/
theorem readDecimal?_whole (whole rest : List Char) {e : Int}
    (hwhole : ∀ c ∈ whole, isDigit c = true) (hrest : NoDigitFirst rest)
    (hpoint : takeFraction rest = ([], rest)) (he : readExponent? rest = some e) (hne : whole ≠ []) :
    readDecimal? (whole ++ rest) = some ⟨ofDigits whole, e⟩ := by
  have hdigits := takeWhile_digits hwhole hrest
  rw [readDecimal?, hdigits.1, hdigits.2, hpoint]
  simp only
  rw [if_neg (fun h => hne h.1), he, List.append_nil]
  simp

/-- The characters of a text are neither blanks nor commas. -/
def Unbroken (cs : List Char) : Prop := ∀ c ∈ cs, isBlank c = false ∧ c ≠ ','

theorem unbroken_digits {cs : List Char} (h : ∀ c ∈ cs, isDigit c = true) : Unbroken cs := by
  intro c hc
  have hdigit := h c hc
  rw [isDigit, Bool.and_eq_true, decide_eq_true_eq, decide_eq_true_eq] at hdigit
  have hlow : 48 ≤ c.toNat := hdigit.1
  have hhigh : c.toNat ≤ 57 := hdigit.2
  constructor
  · rw [isBlank, blank]
    simp [Ranges.covers]
    omega
  · rintro rfl
    exact absurd hlow (by decide)

theorem unbroken_cons {c : Char} (h : isBlank c = false ∧ c ≠ ',') {cs : List Char}
    (hcs : Unbroken cs) : Unbroken (c :: cs) := by
  intro c' hc'
  rcases List.mem_cons.1 hc' with rfl | hmem
  · exact h
  · exact hcs c' hmem

theorem Unbroken.append {cs ds : List Char} (hcs : Unbroken cs) (hds : Unbroken ds) :
    Unbroken (cs ++ ds) := by
  intro c hc
  rcases List.mem_append.1 hc with hmem | hmem
  · exact hcs c hmem
  · exact hds c hmem

theorem unbroken_toString (n : Int) : Unbroken (toString n).toList := by
  have hdigits : ∀ k, Unbroken (Nat.toDigits 10 k) := fun k => unbroken_digits (isDigit_toDigits k)
  cases n with
  | ofNat n => exact (Nat.toList_repr (n := n)) ▸ hdigits n
  | negSucc n =>
      show Unbroken ("-" ++ (n + 1).repr).toList
      rw [String.toList_append, Nat.toList_repr]
      exact unbroken_cons (by decide) (hdigits _)

/-- The text is one of a number without a sign, which has the given bits. -/
structure SpellsBits (cs : List Char) (bits : Nat) : Prop where
  reads : ∃ d, readDecimal? cs = some d ∧ d.magnitude = bits
  first : ∃ c rest, cs = c :: rest ∧ isDigit c = true
  unbroken : Unbroken cs

section

variable (n : Nat) (e : Int)

/-- Digits behind the point only. -/
theorem spellsBits_small {z : Nat} (h : ((Nat.toDigits 10 n).length : Int) + e = -z) :
    SpellsBits ('0' :: '.' :: (List.replicate z '0' ++ Nat.toDigits 10 n))
      (Decimal.magnitude ⟨n, e⟩) := by
  have hfraction : ∀ c ∈ List.replicate z '0' ++ Nat.toDigits 10 n, isDigit c = true := by
    intro c hc
    rcases List.mem_append.1 hc with hmem | hmem
    · exact isDigit_zeros z c hmem
    · exact isDigit_toDigits n c hmem
  have hread := readDecimal?_point ['0'] _ [] (isDigit_zeros 1) hfraction ⟨rfl, rfl⟩ rfl
    (by simp [Nat.toDigits_ne_nil])
  rw [List.append_nil] at hread
  refine ⟨⟨_, hread, ?_⟩, ⟨_, _, rfl, by decide⟩,
    unbroken_cons (by decide) (unbroken_cons (by decide) (unbroken_digits hfraction))⟩
  have hdigits : ofDigits (['0'] ++ (List.replicate z '0' ++ Nat.toDigits 10 n)) = n := by
    rw [← List.append_assoc]
    exact (ofDigits_zeros_append (z + 1) _).trans (ofDigits_toDigits n)
  rw [hdigits, List.length_append, List.length_replicate]
  congr 2
  push_cast
  omega

theorem first_toDigits (rest : List Char) :
    ∃ c cs, Nat.toDigits 10 n ++ rest = c :: cs ∧ isDigit c = true := by
  obtain ⟨c, cs, hcs⟩ := List.exists_cons_of_ne_nil (Nat.toDigits_ne_nil (b := 10) (n := n))
  refine ⟨c, cs ++ rest, by rw [hcs]; rfl, isDigit_toDigits n c ?_⟩
  rw [hcs]
  exact List.mem_cons_self

/-- A whole number, with or without a point. -/
theorem spellsBits_whole (keepsPoint : Bool) {z : Nat} (h : e = z) :
    SpellsBits (Nat.toDigits 10 n ++ List.replicate z '0' ++ (if keepsPoint then ['.', '0'] else []))
      (Decimal.magnitude ⟨n, e⟩) := by
  have hwhole : ∀ c ∈ Nat.toDigits 10 n ++ List.replicate z '0', isDigit c = true := by
    intro c hc
    rcases List.mem_append.1 hc with hmem | hmem
    · exact isDigit_toDigits n c hmem
    · exact isDigit_zeros z c hmem
  have hdigits : ∀ k, ofDigits (Nat.toDigits 10 n ++ List.replicate k '0') = n * 10 ^ k := by
    intro k
    rw [ofDigits_append_zeros, ofDigits_toDigits]
  refine ⟨?_, by rw [List.append_assoc]; exact first_toDigits n _, ?_⟩
  · cases keepsPoint with
    | true =>
        refine ⟨_, readDecimal?_point _ ['0'] [] hwhole (isDigit_zeros 1) ⟨rfl, rfl⟩ rfl (by simp),
          ?_⟩
        rw [List.append_assoc, ← List.replicate_succ', hdigits, ← Decimal.magnitude_zeros n e (z + 1)]
        congr 2
        simp only [List.length_singleton]
        omega
    | false =>
        refine ⟨_, readDecimal?_whole _ [] hwhole ⟨rfl, rfl⟩ rfl rfl (by simp [Nat.toDigits_ne_nil]), ?_⟩
        rw [hdigits, ← Decimal.magnitude_zeros n e z]
        congr 2
        omega
  · refine (unbroken_digits hwhole).append ?_
    cases keepsPoint with
    | true => exact unbroken_cons (by decide) (unbroken_cons (by decide) (by simp [Unbroken]))
    | false => simp [Unbroken]

/-- Digits on both sides of the point. -/
theorem spellsBits_split {k : Nat} (h : ((Nat.toDigits 10 n).length : Int) + e = k) (hk : 0 < k)
    (hlt : k < (Nat.toDigits 10 n).length) :
    SpellsBits ((Nat.toDigits 10 n).take k ++ '.' :: (Nat.toDigits 10 n).drop k)
      (Decimal.magnitude ⟨n, e⟩) := by
  have htake : ∀ c ∈ (Nat.toDigits 10 n).take k, isDigit c = true :=
    fun c hc => isDigit_toDigits n c (List.mem_of_mem_take hc)
  have hdrop : ∀ c ∈ (Nat.toDigits 10 n).drop k, isDigit c = true :=
    fun c hc => isDigit_toDigits n c (List.mem_of_mem_drop hc)
  have hread := readDecimal?_point _ _ [] htake hdrop ⟨rfl, rfl⟩ rfl (by simpa using hlt)
  rw [List.append_nil] at hread
  refine ⟨⟨_, hread, ?_⟩, ?_, ?_⟩
  · rw [List.take_append_drop, ofDigits_toDigits, List.length_drop]
    congr 2
    omega
  · obtain ⟨c, cs, hcs⟩ := List.exists_cons_of_ne_nil (l := (Nat.toDigits 10 n).take k)
      (by simp [Nat.toDigits_ne_nil, Nat.ne_of_gt hk])
    refine ⟨c, _, by rw [hcs]; rfl, htake c ?_⟩
    rw [hcs]
    exact List.mem_cons_self
  · exact (unbroken_digits htake).append (unbroken_cons (by decide) (unbroken_digits hdrop))

/-- One digit, the others behind a point, and an exponent. -/
theorem spellsBits_scientific :
    SpellsBits (Layout.scientific (String.ofList (Nat.toDigits 10 n))
      ((Nat.toDigits 10 n).length + e)).toList (Decimal.magnitude ⟨n, e⟩) := by
  have hdigits := isDigit_toDigits n
  have hvalue := ofDigits_toDigits n
  have hmark : ∀ p : Int, NoDigitFirst ('e' :: (toString p).toList) :=
    fun p => noDigitFirst_cons (by decide) _
  have hunbroken : ∀ p : Int, Unbroken ('e' :: (toString p).toList) :=
    fun p => unbroken_cons (by decide) (unbroken_toString p)
  rw [Layout.scientific, String.toList_ofList]
  generalize hlist : Nat.toDigits 10 n = digits at hdigits hvalue ⊢
  match digits with
  | [] => exact absurd hlist Nat.toDigits_ne_nil
  | [d] =>
      have hread := readDecimal?_whole [d] _ hdigits (hmark _) rfl
        (readExponent?_toString (([d].length : Int) + e - 1)) (by simp)
      simp only [String.toList_append, String.toList_ofList]
      refine ⟨⟨_, hread, ?_⟩, ⟨d, _, rfl, hdigits d (by simp)⟩,
        (unbroken_digits hdigits).append (hunbroken _)⟩
      rw [hvalue]
      congr 2
      simp only [List.length_singleton]
      omega
  | d :: d' :: rest =>
      have hfirst : ∀ c ∈ [d], isDigit c = true := fun c hc => hdigits c (by simp_all)
      have hothers : ∀ c ∈ d' :: rest, isDigit c = true :=
        fun c hc => hdigits c (List.mem_cons_of_mem d hc)
      have hread := readDecimal?_point [d] (d' :: rest) _ hfirst hothers (hmark _)
        (readExponent?_toString (((d :: d' :: rest).length : Int) + e - 1)) (by simp)
      simp only [String.toList_append, String.toList_ofList]
      refine ⟨⟨_, hread, ?_⟩, ⟨d, _, rfl, hdigits d (by simp)⟩, (unbroken_digits hfirst).append
        (unbroken_cons (by decide) ((unbroken_digits hothers).append (hunbroken _)))⟩
      rw [List.singleton_append, hvalue]
      congr 2
      simp only [List.length_cons]
      push_cast
      omega

/-- Digits with a point, or with zeros up to it. -/
theorem spellsBits_spell (layout : Layout) :
    SpellsBits (layout.spell (String.ofList (Nat.toDigits 10 n))
      ((Nat.toDigits 10 n).length + e)).toList (Decimal.magnitude ⟨n, e⟩) := by
  rw [Layout.spell]
  simp only [String.length_ofList, Layout.zeros]
  split
  · rename_i hsmall
    have hz := spellsBits_small n e (z := (-((Nat.toDigits 10 n).length + e)).toNat) (by omega)
    simpa using hz
  · split
    · rename_i hwhole
      have hz := spellsBits_whole n e layout.keepsPoint
        (z := ((Nat.toDigits 10 n).length + e - (Nat.toDigits 10 n).length).toNat) (by omega)
      cases hkeeps : layout.keepsPoint <;> simpa [hkeeps] using hz
    · have hz := spellsBits_split n e (k := ((Nat.toDigits 10 n).length + e).toNat) (by omega)
        (by omega) (by omega)
      simpa using hz

end

/-- **The text of a positive number spells its bits.** -/
theorem spellsBits_writePositive (layout : Layout) {m : Nat} {e : Int} (h : InRange m e)
    (hm : 0 < m) :
    SpellsBits (layout.writePositive m e).toList
      (magnitudeBits (scale m 1 e).1 (scale m 1 e).2) := by
  rw [← magnitude_shortest h hm, Layout.writePositive]
  simp only [String.length_ofList]
  split
  · exact spellsBits_spell _ _ layout
  · exact spellsBits_scientific _ _

/-- A sign before the text of a number. -/
theorem readFloat?_sign {cs : List Char} {bits : Nat} (h : SpellsBits cs bits) (negative : Bool) :
    readFloat? (if negative then '-' :: cs else cs) = some (ofMagnitude negative bits) := by
  obtain ⟨⟨d, hread, hbits⟩, ⟨c, rest, rfl, hdigit⟩, -⟩ := h
  cases negative with
  | true =>
      rw [if_pos rfl, readFloat?, takeSign]
      simp only [hread, hbits]
  | false =>
      rw [if_neg (by decide), readFloat?, takeSign_digit hdigit]
      simp only [hread, hbits]

/-- The text of zero. -/
theorem spellsBits_zero (keepsPoint : Bool) :
    SpellsBits (if keepsPoint then "0.0" else "0").toList 0 := by
  cases keepsPoint with
  | true => exact ⟨⟨⟨0, -1⟩, rfl, rfl⟩, ⟨_, _, rfl, by decide⟩, by simp [Unbroken]; decide⟩
  | false => exact ⟨⟨⟨0, 0⟩, rfl, rfl⟩, ⟨_, _, rfl, by decide⟩, by simp [Unbroken]; decide⟩

theorem readFloat?_infinity (negative : Bool) :
    readFloat? (if negative then "-inf" else "inf").toList = some (infinity negative) := by
  have hword : readWord? negative ['i', 'n', 'f'] = some (infinity negative) := by
    rw [readWord?, if_pos (.inl (by decide))]
  cases negative with
  | true => exact hword
  | false => exact hword

/-- **A number is read back from its text**, in every layout, and the text has neither blanks nor
commas. -/
theorem readFloat?_write (layout : Layout) {x : Float} (h : Parts.ofFloat x ≠ .nan) :
    readFloat? (layout.write x).toList = some x ∧ Unbroken (layout.write x).toList := by
  rw [Layout.write]
  cases hparts : Parts.ofFloat x with
  | nan => exact absurd hparts h
  | infinite negative =>
      simp only
      refine ⟨(readFloat?_infinity negative).trans (by rw [infinity_of_parts hparts]), ?_⟩
      cases negative with
      | true => simp [Unbroken]; decide
      | false => simp [Unbroken]; decide
  | finite negative m e =>
      have hrange := Parts.inRange hparts
      have hspells : SpellsBits (if m = 0 then (if layout.keepsPoint then "0.0" else "0")
          else layout.writePositive m e).toList (magnitudeBits (scale m 1 e).1 (scale m 1 e).2) := by
        by_cases hm : m = 0
        · rw [hrange.magnitudeBits_scale, if_pos hm, if_pos hm]
          exact spellsBits_zero layout.keepsPoint
        · rw [if_neg hm]
          exact spellsBits_writePositive layout hrange (Nat.pos_of_ne_zero hm)
      have hread := readFloat?_sign hspells negative
      rw [← ofRatio, ofRatio_scale hparts] at hread
      simp only
      generalize (if m = 0 then _ else _ : String) = body at hread hspells ⊢
      cases negative with
      | true =>
          rw [if_pos rfl, String.toList_append]
          exact ⟨hread, unbroken_cons (by decide) hspells.unbroken⟩
      | false => exact ⟨hread, hspells.unbroken⟩

end BisayaLang.Number
