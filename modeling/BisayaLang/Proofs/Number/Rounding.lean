/-
**Rounding gives back the numbers.**

A finite number has an exact value, `mantissa * 2 ^ exponent`, and the number nearest to that value is the
number itself.  The exponent to which a fraction is rounded is read off its binary logarithm; so rounding
depends on the value of a fraction only, and not on how it is written.

The 64 bits of a number say all of it, since there is only one number that is not a number.

Main definitions:

* `BisayaLang.Number.InRange` — the mantissa and the exponent that a finite number can have.

Main results:

* `BisayaLang.Number.Parts.ofFloat_cases` — what a number can be, and what its bits are then;
* `BisayaLang.Number.exponentOf_eq` — the exponent is a logarithm;
* `BisayaLang.Number.magnitudeBits_mul` — **rounding depends on the value only**;
* `BisayaLang.Number.ofRatio_scale` — **a finite number is the one nearest to its value**.
-/

import BisayaLang.Number.Binary
import Mathlib

set_option relaxedAutoImplicit false
set_option autoImplicit false

namespace BisayaLang.Number

open Float.Model Float.Model.UnpackedFloat

/-! ### What a number can be -/

theorem twoTo_eq (n : Nat) : twoTo n = 2 ^ n := rfl

theorem exponentBit_eq : exponentBit = 2 ^ 52 := rfl

theorem signBit_eq : signBit = 2 ^ 63 := rfl

theorem ofMagnitude_toBits (x : Float) :
    ofMagnitude (decide (signBit ≤ x.toBits.toNat)) (x.toBits.toNat % signBit) = x := by
  have hlt := x.toBits.toNat_lt
  have hbits : (if decide (signBit ≤ x.toBits.toNat) = true then
      signBit + x.toBits.toNat % signBit else x.toBits.toNat % signBit) = x.toBits.toNat := by
    rw [signBit_eq]
    by_cases hsign : 2 ^ 63 ≤ x.toBits.toNat
    · rw [if_pos (decide_eq_true hsign)]
      omega
    · rw [if_neg (by simpa using hsign)]
      omega
  rw [ofMagnitude, hbits, UInt64.ofNat_toNat, Float.ofBits_toBits]

/-- The mantissa and the exponent are those of a finite number: the mantissa has 53 bits, or the exponent
is the least one. -/
structure InRange (m : Nat) (e : Int) : Prop where
  mantissa : m < 2 ^ 53
  least : -1074 ≤ e
  greatest : e ≤ 971
  normal : 2 ^ 52 ≤ m ∨ e = -1074

/-- **What a number can be**, and what its bits are then. -/
theorem Parts.ofFloat_cases (x : Float) :
    let bits := x.toBits.toNat
    (Parts.ofFloat x = .nan ∧ bits / exponentBit % 2048 = 2047 ∧ bits % exponentBit ≠ 0) ∨
    (Parts.ofFloat x = .infinite (decide (signBit ≤ bits)) ∧ bits % signBit = infiniteBits) ∨
    ∃ m e, Parts.ofFloat x = .finite (decide (signBit ≤ bits)) m e ∧ InRange m e ∧
      bits % signBit = if m = 0 then 0 else (e + 1074).toNat * exponentBit + m := by
  have hlt := x.toBits.toNat_lt
  rw [Parts.ofFloat, infiniteBits, exponentBit_eq, signBit_eq]
  generalize x.toBits.toNat = bits at hlt ⊢
  simp only
  by_cases hspecial : bits / 2 ^ 52 % 2048 = 2047
  · rw [if_pos hspecial]
    by_cases hfraction : bits % 2 ^ 52 = 0
    · exact .inr (.inl ⟨if_pos hfraction, by omega⟩)
    · exact .inl ⟨if_neg hfraction, hspecial, hfraction⟩
  · rw [if_neg hspecial]
    refine .inr (.inr ?_)
    by_cases hsubnormal : bits / 2 ^ 52 % 2048 = 0
    · refine ⟨bits % 2 ^ 52, -1074, if_pos hsubnormal, by constructor <;> omega, ?_⟩
      split <;> omega
    · refine ⟨2 ^ 52 + bits % 2 ^ 52, _, if_neg hsubnormal, by constructor <;> omega, ?_⟩
      rw [if_neg (by omega)]
      omega

theorem toNat_unpackExponent (b : BitVec 64) :
    (@unpackExponent Format.binary64 b).toNat = b.toNat / exponentBit % 2048 := by
  simp [unpackExponent, BitVec.extractLsb_toNat, Nat.shiftRight_eq_div_pow, exponentBit_eq]

theorem toNat_unpackMantissa (b : BitVec 64) :
    (@unpackMantissa Format.binary64 b).toNat = b.toNat % exponentBit := by
  simp [unpackMantissa, BitVec.extractLsb_toNat, exponentBit_eq]

theorem Parts.ofFloat_ne_nan {x : Float} (h : x.isNaN = false) : Parts.ofFloat x ≠ .nan := by
  intro hnan
  obtain ⟨-, hexponent, hmantissa⟩ | ⟨h', -⟩ | ⟨m, e, h', -⟩ := Parts.ofFloat_cases x
  · have hspecial : @unpackExponent Format.binary64 x.toModel.toBits.toBitVec = -1#_ := by
      apply BitVec.eq_of_toNat_eq
      rw [toNat_unpackExponent]
      exact hexponent
    have hfraction : @unpackMantissa Format.binary64 x.toModel.toBits.toBitVec ≠ 0#_ := by
      intro hzero
      apply hmantissa
      have hnat := congrArg BitVec.toNat hzero
      rw [toNat_unpackMantissa] at hnat
      exact hnat
    have hnot : x.isNaN = true :=
      (isNaN_unpack_iff_of_valid x.toModel.valid).2 (x.toModel.valid.eq_packedNaN hspecial hfraction)
    rw [h] at hnot
    cases hnot
  · cases hnan.symm.trans h'
  · cases hnan.symm.trans h'

/-! ### Fractions -/

theorem scale_fst_pos {num : Nat} (h : 0 < num) (den : Nat) (e : Int) : 0 < (scale num den e).1 := by
  cases e with
  | ofNat n => exact Nat.mul_pos h (Nat.pow_pos (by decide))
  | negSucc n => exact h

theorem scale_snd_pos (num : Nat) {den : Nat} (h : 0 < den) (e : Int) : 0 < (scale num den e).2 := by
  cases e with
  | ofNat n => exact h
  | negSucc n => exact Nat.mul_pos h (Nat.pow_pos (by decide))

/-- Scaling multiplies by a power of two. -/
theorem scale_ratio (num : Nat) {den : Nat} (h : 0 < den) (e : Int) :
    ((scale num den e).1 : ℚ) / (scale num den e).2 = (num / den : ℚ) * 2 ^ e := by
  have hden : (den : ℚ) ≠ 0 := by positivity
  cases e with
  | ofNat n =>
      simp only [scale, twoTo_eq, Int.ofNat_eq_natCast, zpow_natCast]
      push_cast
      field_simp
  | negSucc n =>
      simp only [scale, twoTo_eq, zpow_negSucc]
      push_cast
      field_simp

theorem scale_mul (c num den : Nat) (e : Int) :
    scale (c * num) (c * den) e = (c * (scale num den e).1, c * (scale num den e).2) := by
  cases e with
  | ofNat n => rw [scale, scale, Nat.mul_assoc]
  | negSucc n => rw [scale, scale, Nat.mul_assoc]

/-- Scaling there and back. -/
theorem scale_scale_neg (m : Nat) (e : Int) :
    ∃ k, 0 < k ∧ scale (scale m 1 e).1 (scale m 1 e).2 (-e) = (m * k, k) := by
  cases e with
  | ofNat n =>
      cases n with
      | zero => exact ⟨1, by decide, by simp [scale, twoTo_eq]⟩
      | succ n =>
          refine ⟨twoTo (n + 1), Nat.pow_pos (by decide), ?_⟩
          show (m * twoTo (n + 1), 1 * twoTo (n + 1)) = _
          rw [Nat.one_mul]
  | negSucc n =>
      refine ⟨twoTo (n + 1), Nat.pow_pos (by decide), ?_⟩
      show (m * twoTo (n + 1), 1 * twoTo (n + 1)) = _
      rw [Nat.one_mul]

/-- A fraction lies between the powers of two that the lengths of its parts give. -/
theorem ratio_log2 {num den : Nat} (hnum : 0 < num) (hden : 0 < den) :
    (2 : ℚ) ^ ((num.log2 : Int) - den.log2 - 1) ≤ num / den ∧
      (num / den : ℚ) < 2 ^ ((num.log2 : Int) - den.log2 + 1) := by
  have hbetween : ∀ {n : Nat}, 0 < n → (2 : ℚ) ^ n.log2 ≤ n ∧ (n : ℚ) < 2 ^ (n.log2 + 1) := by
    intro n hn
    exact_mod_cast (Nat.log2_eq_iff (Nat.ne_of_gt hn)).1 rfl
  have hn := hbetween hnum
  have hd := hbetween hden
  have hpos : (0 : ℚ) < den := by positivity
  rw [le_div_iff₀ hpos, div_lt_iff₀ hpos]
  constructor
  · calc (2 : ℚ) ^ ((num.log2 : Int) - den.log2 - 1) * den
        ≤ 2 ^ ((num.log2 : Int) - den.log2 - 1) * 2 ^ ((den.log2 : Int) + 1) := by
          gcongr
          exact_mod_cast hd.2.le
      _ = 2 ^ num.log2 := by
          rw [← zpow_add₀ (by norm_num), ← zpow_natCast]
          congr 1
          ring
      _ ≤ num := hn.1
  · calc (num : ℚ) < 2 ^ (num.log2 + 1) := hn.2
      _ = 2 ^ ((num.log2 : Int) - den.log2 + 1) * 2 ^ (den.log2 : Int) := by
          rw [← zpow_add₀ (by norm_num), ← zpow_natCast]
          congr 1
          push_cast
          ring
      _ ≤ 2 ^ ((num.log2 : Int) - den.log2 + 1) * den := by
          gcongr
          exact_mod_cast hd.1

/-- Whether a mantissa is too short for an exponent is a question about the value. -/
theorem scale_lt_iff (num : Nat) {den : Nat} (hden : 0 < den) (e : Int) :
    (scale num den (-e)).1 < exponentBit * (scale num den (-e)).2 ↔
      (num / den : ℚ) < 2 ^ (e + 52) := by
  have hpos : (0 : ℚ) < (scale num den (-e)).2 := by exact_mod_cast scale_snd_pos num hden (-e)
  have hpow : (0 : ℚ) < 2 ^ e := by positivity
  calc (scale num den (-e)).1 < exponentBit * (scale num den (-e)).2
      ↔ ((scale num den (-e)).1 : ℚ) / (scale num den (-e)).2 < 2 ^ 52 := by
        rw [div_lt_iff₀ hpos, exponentBit_eq]
        exact_mod_cast Iff.rfl
    _ ↔ (num / den : ℚ) < 2 ^ (e + 52) := by
        rw [scale_ratio num hden, zpow_neg, ← div_eq_mul_inv, div_lt_iff₀ hpow,
          zpow_add₀ (by norm_num), mul_comm]
        exact_mod_cast Iff.rfl

/-- **The exponent of a fraction is read off its binary logarithm.** -/
theorem exponentOf_eq {num den : Nat} (hnum : 0 < num) (hden : 0 < den) :
    exponentOf num den = max (Int.log 2 (num / den : ℚ) - 52) (-1074) := by
  have hv : (0 : ℚ) < num / den := by positivity
  obtain ⟨hle, hlt⟩ := ratio_log2 hnum hden
  rw [exponentOf]
  simp only [scale_lt_iff num hden]
  generalize (num.log2 : Int) - den.log2 = guess at hle hlt ⊢
  rw [sub_add_cancel]
  have hlow := (Int.zpow_le_iff_le_log (b := 2) (by decide) hv).1 (by exact_mod_cast hle)
  have hhigh := (Int.lt_zpow_iff_log_lt (b := 2) (by decide) hv).1 (by exact_mod_cast hlt)
  have hmid := Int.lt_zpow_iff_log_lt (b := 2) (x := guess) (by decide) hv
  push_cast at hmid
  simp only [hmid]
  -- the guess is right, or one too great
  split
  · congr 1
    omega
  · congr 1
    omega

/-! ### Rounding -/

theorem roundHalfEven_mul {c : Nat} (hc : 0 < c) (num den : Nat) :
    roundHalfEven (c * num) (c * den) = roundHalfEven num den := by
  have hlow : 2 * (c * (num % den)) < c * den ↔ 2 * (num % den) < den := by
    rw [Nat.mul_left_comm, Nat.mul_lt_mul_left hc]
  have hhigh : c * den < 2 * (c * (num % den)) ↔ den < 2 * (num % den) := by
    rw [Nat.mul_left_comm, Nat.mul_lt_mul_left hc]
  simp only [roundHalfEven, Nat.mul_div_mul_left _ _ hc, Nat.mul_mod_mul_left, hlow, hhigh]

theorem roundHalfEven_exact (n : Nat) {den : Nat} (h : 0 < den) :
    roundHalfEven (n * den) den = n := by
  rw [roundHalfEven, Nat.mul_div_cancel n h, Nat.mul_mod_left, if_pos (by omega)]

/-- **Rounding depends on the value of a fraction only.** -/
theorem magnitudeBits_mul {c : Nat} (hc : 0 < c) (num : Nat) {den : Nat} (hden : 0 < den) :
    magnitudeBits (c * num) (c * den) = magnitudeBits num den := by
  by_cases hnum : num = 0
  · rw [hnum, Nat.mul_zero, magnitudeBits, magnitudeBits, if_pos rfl, if_pos rfl]
  · have hvalue : ((c * num : Nat) : ℚ) / (c * den : Nat) = num / den := by
      have hc' : (c : ℚ) ≠ 0 := by positivity
      push_cast
      rw [mul_div_mul_left _ _ hc']
    have hexponent : exponentOf (c * num) (c * den) = exponentOf num den := by
      have hpos : 0 < num := Nat.pos_of_ne_zero hnum
      rw [exponentOf_eq (Nat.mul_pos hc hpos) (Nat.mul_pos hc hden), exponentOf_eq hpos hden, hvalue]
    have hne : c * num ≠ 0 := Nat.mul_ne_zero (Nat.ne_of_gt hc) hnum
    simp only [magnitudeBits, if_neg hnum, if_neg hne, hexponent, scale_mul, roundHalfEven_mul hc]

/-- The exponent of a number is its own. -/
theorem InRange.exponentOf_scale {m : Nat} {e : Int} (h : InRange m e) (hm : 0 < m) :
    exponentOf (scale m 1 e).1 (scale m 1 e).2 = e := by
  have hv : (0 : ℚ) < m * 2 ^ e := by positivity
  have hbelow : (m * 2 ^ e : ℚ) < (2 : Nat) ^ (e + 53) := by
    rw [add_comm, zpow_add₀ (by norm_num)]
    push_cast
    gcongr
    exact_mod_cast h.mantissa
  have hlog := (Int.lt_zpow_iff_log_lt (by decide) hv).1 hbelow
  have hleast := h.least
  rw [exponentOf_eq (scale_fst_pos hm 1 e) (scale_snd_pos m Nat.one_pos e),
    scale_ratio m Nat.one_pos, Nat.cast_one, div_one]
  rcases h.normal with hnormal | hsubnormal
  · have habove : ((2 : Nat) : ℚ) ^ (e + 52) ≤ m * 2 ^ e := by
      rw [add_comm, zpow_add₀ (by norm_num)]
      push_cast
      gcongr
      exact_mod_cast hnormal
    have hlog' := (Int.zpow_le_iff_le_log (by decide) hv).1 habove
    omega
  · omega

/-- The value of a number is rounded to the bits of the number. -/
theorem InRange.magnitudeBits_scale {m : Nat} {e : Int} (h : InRange m e) :
    magnitudeBits (scale m 1 e).1 (scale m 1 e).2 =
      if m = 0 then 0 else (e + 1074).toNat * exponentBit + m := by
  by_cases hm : m = 0
  · have hzero : (scale m 1 e).1 = 0 := by
      rw [hm]
      cases e <;> simp [scale]
    rw [if_pos hm, magnitudeBits, if_pos hzero]
  · have hpos : 0 < m := Nat.pos_of_ne_zero hm
    have hne : (scale m 1 e).1 ≠ 0 := Nat.ne_of_gt (scale_fst_pos hpos 1 e)
    have hfits : (e + 1074).toNat * exponentBit + m ≤ infiniteBits := by
      obtain ⟨hmantissa, hleast, hgreatest, -⟩ := h
      rw [infiniteBits, exponentBit_eq]
      omega
    obtain ⟨k, hk, hscale⟩ := scale_scale_neg m e
    simp only [magnitudeBits, if_neg hne, if_neg hm, h.exponentOf_scale hpos, hscale,
      roundHalfEven_exact m hk, Nat.min_eq_left hfits]

theorem Parts.inRange {x : Float} {negative : Bool} {m : Nat} {e : Int}
    (h : Parts.ofFloat x = .finite negative m e) : InRange m e := by
  obtain ⟨h', -⟩ | ⟨h', -⟩ | ⟨m', e', h', hrange, -⟩ := Parts.ofFloat_cases x
  · cases h.symm.trans h'
  · cases h.symm.trans h'
  · cases h.symm.trans h'
    exact hrange

/-- **A finite number is the one nearest to its value.** -/
theorem ofRatio_scale {x : Float} {negative : Bool} {m : Nat} {e : Int}
    (h : Parts.ofFloat x = .finite negative m e) :
    ofRatio negative (scale m 1 e).1 (scale m 1 e).2 = x := by
  obtain ⟨h', -⟩ | ⟨h', -⟩ | ⟨m', e', h', hrange, hbits⟩ := Parts.ofFloat_cases x
  · cases h.symm.trans h'
  · cases h.symm.trans h'
  · cases h.symm.trans h'
    rw [ofRatio, hrange.magnitudeBits_scale, ← hbits, ofMagnitude_toBits]

theorem infinity_of_parts {x : Float} {negative : Bool} (h : Parts.ofFloat x = .infinite negative) :
    infinity negative = x := by
  obtain ⟨h', -⟩ | ⟨h', hbits⟩ | ⟨m, e, h', -⟩ := Parts.ofFloat_cases x
  · cases h.symm.trans h'
  · cases h.symm.trans h'
    rw [infinity, ← hbits, ofMagnitude_toBits]
  · cases h.symm.trans h'

end BisayaLang.Number
