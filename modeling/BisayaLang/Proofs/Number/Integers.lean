/-
**Integers among the numbers.**

Counting is done with binary floating point numbers, and is still exact up to `2 ^ 53`.  A finite number
has a value, which is a fraction; the comparison of two numbers is that of their values.  Adding one rounds
the exact sum, but an integer up to `2 ^ 53` is a number itself, with a mantissa of 53 bits, so that rounding
leaves it as it is.

Two numbers stand for zero, one with each sign, and have the same value.

Main definitions:

* `BisayaLang.Number.value?` — the value of a finite number.

Main results:

* `BisayaLang.Number.Parts.ofFloat_eq_ofUnpacked` — the parts of a number are those of the floating point
  standard;
* `BisayaLang.Number.order?_of_values` — **numbers are ordered by their values**;
* `BisayaLang.Number.round_exact`, `BisayaLang.Number.unpack_pack` — a number of 53 bits is neither rounded
  nor changed when it is stored;
* `BisayaLang.Number.value?_add_one`, `BisayaLang.Number.value?_sub_one` — **adding one to an integer and
  subtracting one are exact**.
-/

import BisayaLang.Proofs.Number.Rounding
import BisayaLang.Proofs.Execution.Comparisons

set_option relaxedAutoImplicit false
set_option autoImplicit false

namespace BisayaLang.Number

open Float.Model Float.Model.UnpackedFloat

/-! ### Values -/

/-- The parts of an unpacked number. -/
def Parts.ofUnpacked : UnpackedFloat → Parts
  | .notANumber => .nan
  | .infinity s => .infinite (s == .negative)
  | .zero s => .finite (s == .negative) 0 (-1074)
  | .finite s m e _ => .finite (s == .negative) m e

theorem toNat_unpackSign (b : BitVec 64) :
    (@unpackSign Format.binary64 b).toNat = b.toNat / signBit := by
  have hlt : b.toNat / 2 ^ 63 < 2 := by
    rw [Nat.div_lt_iff_lt_mul (by decide)]
    exact b.isLt
  rw [unpackSign, BitVec.toNat_cast, BitVec.extractLsb_toNat, Nat.shiftRight_eq_div_pow]
  exact Nat.mod_eq_of_lt hlt

theorem negative_unpackSign (b : BitVec 64) :
    (Sign.ofBitVec (@unpackSign Format.binary64 b) == .negative) = decide (signBit ≤ b.toNat) := by
  have hsign := toNat_unpackSign b
  by_cases h : signBit ≤ b.toNat
  · have hne : @unpackSign Format.binary64 b ≠ 0#1 := by
      intro h0
      rw [h0] at hsign
      exact absurd hsign.symm (Nat.ne_of_gt (Nat.div_pos h (by decide)))
    rw [Sign.ofBitVec, if_neg hne, decide_eq_true h]
    rfl
  · have he : @unpackSign Format.binary64 b = 0#1 := by
      apply BitVec.eq_of_toNat_eq
      rw [hsign, Nat.div_eq_of_lt (Nat.lt_of_not_le h)]
      rfl
    rw [Sign.ofBitVec, if_pos he, decide_eq_false h]
    rfl

/-- **The parts of a number are those of the floating point standard.** -/
theorem Parts.ofFloat_eq_ofUnpacked (x : Float) :
    Parts.ofFloat x = .ofUnpacked x.toModel.unpack := by
  have hbits : x.toBits.toNat = x.toModel.toBits.toBitVec.toNat := rfl
  unfold Parts.ofFloat Float.Model.unpack UnpackedFloat.unpack
  rw [hbits]
  generalize x.toModel.toBits.toBitVec = b
  simp only [← negative_unpackSign, ← toNat_unpackExponent, ← toNat_unpackMantissa]
  have hspecial : @unpackExponent Format.binary64 b = -1#11 ↔
      (@unpackExponent Format.binary64 b).toNat = 2047 := by
    rw [← BitVec.toNat_inj]
    rfl
  have hleast : @unpackExponent Format.binary64 b = 0#11 ↔
      (@unpackExponent Format.binary64 b).toNat = 0 := by
    rw [← BitVec.toNat_inj]
    rfl
  have hwhole : @unpackMantissa Format.binary64 b = 0#52 ↔
      (@unpackMantissa Format.binary64 b).toNat = 0 := by
    rw [← BitVec.toNat_inj]
    rfl
  simp only [hspecial, hleast, hwhole]
  split
  · split <;> rfl
  · split
    · rename_i h0
      split
      · rename_i hm
        rw [hm]
        rfl
      · rw [h0]
        rfl
    · -- the first bit of the mantissa is not stored
      simp only [ofUnpacked, BitVec.toNat_append]
      congr 1
      rw [← Nat.shiftLeft_add_eq_or_of_lt (BitVec.isLt _)]
      rfl

/-- The value of a finite number.  Zero has it with either sign. -/
def value? (x : Float) : Option ℚ :=
  match Parts.ofFloat x with
  | .finite negative m e => some (signed negative m * 2 ^ e)
  | _ => none

theorem signed_negative (s : Sign) (m : Nat) : signed (s == .negative) m = s.apply m := by
  cases s <;> rfl

theorem value?_eq (x : Float) :
    value? x = match x.toModel.unpack with
      | .zero _ => some 0
      | .finite s m e _ => some (s.apply m * 2 ^ e)
      | _ => none := by
  unfold value?
  rw [Parts.ofFloat_eq_ofUnpacked]
  cases x.toModel.unpack with
  | notANumber | infinity => rfl
  | zero s => cases s <;> simp [Parts.ofUnpacked, signed]
  | finite s m e hm =>
      show some ((signed (s == .negative) m : ℚ) * 2 ^ e) = _
      rw [signed_negative]

/-- What a number with a value looks like. -/
theorem unpack_of_value {x : Float} {v : ℚ} (h : value? x = some v) :
    (∃ s, x.toModel.unpack = .zero s ∧ v = 0) ∨
    ∃ s m e hm, x.toModel.unpack = .finite s m e hm ∧ InRange m e ∧ v = s.apply m * 2 ^ e := by
  rw [value?_eq] at h
  cases hu : x.toModel.unpack with
  | notANumber | infinity =>
      rw [hu] at h
      cases h
  | zero s =>
      rw [hu] at h
      cases h
      exact .inl ⟨s, rfl, rfl⟩
  | finite s m e hm =>
      have hparts := Parts.ofFloat_eq_ofUnpacked x
      rw [hu] at h hparts
      cases h
      exact .inr ⟨s, m, e, hm, rfl, Parts.inRange hparts, rfl⟩

/-! ### The order of values -/

/-- A greater exponent makes a greater number. -/
theorem InRange.lt_of_exponent {m n : Nat} {e f : Int} (hm : InRange m e) (hn : InRange n f)
    (h : e < f) : (m : ℚ) * 2 ^ e < n * 2 ^ f := by
  have hnormal : 2 ^ 52 ≤ n := by
    rcases hn.normal with hn' | hf
    · exact hn'
    · have := hm.least
      omega
  calc (m : ℚ) * 2 ^ e < 2 ^ 53 * 2 ^ e := by
        gcongr
        exact_mod_cast hm.mantissa
    _ = 2 ^ 52 * 2 ^ (e + 1) := by
        rw [zpow_add₀ (by norm_num)]
        ring
    _ ≤ n * 2 ^ f := by
        gcongr
        · exact_mod_cast hnormal
        · norm_num
        · omega

/-- Numbers of one sign go by their exponents first, and then by their mantissas. -/
theorem InRange.compare_then {m n : Nat} {e f : Int} (hm : InRange m e) (hn : InRange n f) :
    (compare e f).then (compare m n) = compare ((m : ℚ) * 2 ^ e) (n * 2 ^ f) := by
  rcases Int.lt_trichotomy e f with h | rfl | h
  · rw [compare_lt_iff_lt.2 h, compare_lt_iff_lt.2 (hm.lt_of_exponent hn h)]
    rfl
  · have hpos : (0 : ℚ) < 2 ^ e := by positivity
    rw [compare_eq_iff_eq.2 rfl, Ordering.eq_then]
    rcases Nat.lt_trichotomy m n with h | rfl | h
    · rw [compare_lt_iff_lt.2 h, eq_comm, compare_lt_iff_lt]
      gcongr
    · rw [compare_eq_iff_eq.2 rfl, compare_eq_iff_eq.2 rfl]
    · rw [compare_gt_iff_gt.2 h, eq_comm, compare_gt_iff_gt]
      show (n : ℚ) * 2 ^ e < m * 2 ^ e
      gcongr
  · rw [compare_gt_iff_gt.2 h, compare_gt_iff_gt.2 (hn.lt_of_exponent hm h)]
    rfl

/-- **The order of finite numbers is that of their values.** -/
theorem order?_of_values {x y : Float} {v w : ℚ} (hx : value? x = some v) (hy : value? y = some w) :
    order? x y = some (compare v w) := by
  have hpos : ∀ {m : Nat} {e : Int}, 0 < m → (0 : ℚ) < (m : ℚ) * 2 ^ e := by
    intro m e hm
    positivity
  rw [order?_eq_compare]
  rcases unpack_of_value hx with ⟨s, hu, rfl⟩ | ⟨s, m, e, hm, hu, hrange, rfl⟩ <;>
    rcases unpack_of_value hy with ⟨t, hu', rfl⟩ | ⟨t, n, f, hn, hu', hrange', rfl⟩ <;>
    rw [hu, hu']
  · rfl
  · have h := hpos (e := f) hn
    cases t with
    | positive => exact congrArg some (compare_lt_iff_lt.2 (by simpa [Sign.apply] using h)).symm
    | negative => exact congrArg some (compare_gt_iff_gt.2 (by simpa [Sign.apply] using h)).symm
  · have h := hpos (e := e) hm
    cases s with
    | positive => exact congrArg some (compare_gt_iff_gt.2 (by simpa [Sign.apply] using h)).symm
    | negative => exact congrArg some (compare_lt_iff_lt.2 (by simpa [Sign.apply] using h)).symm
  · have h := hpos (e := e) hm
    have h' := hpos (e := f) hn
    cases s with
    | positive =>
        cases t with
        | positive => exact congrArg some (hrange.compare_then hrange')
        | negative =>
            refine congrArg some (compare_gt_iff_gt.2 ?_).symm
            simp only [Sign.apply]
            push_cast
            linarith
    | negative =>
        cases t with
        | positive =>
            refine congrArg some (compare_lt_iff_lt.2 ?_).symm
            simp only [Sign.apply]
            push_cast
            linarith
        | negative =>
            refine congrArg some ?_
            rw [magnitude_swap, hrange'.compare_then hrange]
            simp only [Sign.apply]
            push_cast
            rw [neg_mul, neg_mul, ← cmp_eq_compare, ← cmp_eq_compare]
            exact (StrictAnti.cmp_map_eq (fun _ _ => neg_lt_neg) _ _).symm

/-! ### Rounding what needs none -/

theorem zpow_shift {e f : Int} (h : f ≤ e) : (2 : ℚ) ^ e = 2 ^ (e - f).toNat * 2 ^ f := by
  rw [← zpow_natCast, ← zpow_add₀ (by norm_num)]
  congr 1
  omega

theorem InRange.log2_eq {q : Nat} {t : Int} (h : InRange q t) (hq : 2 ^ 52 ≤ q) : q.log2 = 52 :=
  (Nat.log2_eq_iff (by omega)).2 ⟨hq, h.mantissa⟩

theorem shiftRight_exact (q k : Nat) :
    ExtendedMantissa.mk (q * 2 ^ k) false false >>> k = ⟨q, false, false⟩ := by
  show k.repeat ExtendedMantissa.shiftRightOne ⟨q * 2 ^ k, false, false⟩ = ⟨q, false, false⟩
  induction k generalizing q with
  | zero => simp [Nat.repeat]
  | succ k ih =>
      rw [Nat.repeat, Nat.pow_succ', ← Nat.mul_assoc, ih]
      simp [ExtendedMantissa.shiftRightOne]

/-- The place of the first bit does not depend on how a number is written. -/
theorem totalExponent_shift {m : Nat} (hm : 0 < m) (e : Int) (k : Nat) :
    totalExponent (m * 2 ^ k) (e - k) = totalExponent m e := by
  have hlog : (m * 2 ^ k).log2 = m.log2 + k := by
    obtain ⟨hle, hlt⟩ := (Nat.log2_eq_iff (Nat.ne_of_gt hm)).1 rfl
    rw [Nat.log2_eq_iff (by positivity), Nat.pow_add, Nat.add_right_comm, Nat.pow_add]
    exact ⟨Nat.mul_le_mul_right _ hle, Nat.mul_lt_mul_of_pos_right hlt (Nat.pow_pos (by decide))⟩
  rw [totalExponent, totalExponent, hlog]
  push_cast
  ring

/-- A number of 53 bits has the exponent that it needs. -/
theorem targetExponent_eq {q : Nat} {t : Int} (h : InRange q t) (hq : 2 ^ 52 ≤ q) :
    Format.binary64.targetExponent (totalExponent q t) = t := by
  have hleast := h.least
  simp only [Format.targetExponent, totalExponent, Format.mantissaBits, Format.minExponent,
    h.log2_eq hq]
  omega

/-- A number of 53 bits is not rounded. -/
theorem roundWithAccuracy_exact {q : Nat} {t : Int} (h : InRange q t) (hq : 2 ^ 52 ≤ q) (s : Sign)
    (k : Nat) (hpos : 0 < q) :
    roundWithAccuracy Format.binary64 s (q * 2 ^ k) (t - k) .exact = .finite s q t hpos := by
  have hshift : ∀ k : Nat, shiftToTargetExponent Format.binary64 (q * 2 ^ k) (t - k) .exact =
      (⟨q, false, false⟩, t) := by
    intro k
    have hamount : (t - (t - (k : Int))).toNat = k := by omega
    rw [shiftToTargetExponent, shiftToExponent, totalExponent_shift hpos, targetExponent_eq h hq,
      hamount, ExtendedMantissa.ofMantissaAndAccuracy, shiftRight_exact]
    simp
  have hagain := hshift 0
  simp only [pow_zero, Nat.mul_one, Nat.cast_zero, sub_zero] at hagain
  have hround : (ExtendedMantissa.mk q false false).roundedMantissa = q := rfl
  simp only [roundWithAccuracy, hshift k, hround, hagain, dif_neg (Nat.ne_of_gt hpos)]

/-- **Rounding a number of 53 bits leaves it as it is.** -/
theorem round_exact {q m : Nat} {t e : Int} (h : InRange q t) (hq : 2 ^ 52 ≤ q) (hpos : 0 < q)
    (s : Sign) (hvalue : (m : ℚ) * 2 ^ e = q * 2 ^ t) :
    round Format.binary64 s m e = .finite s q t hpos := by
  rcases Int.le_total t e with hte | het
  · -- the mantissa is too short, and is filled up with zeros
    have hm : m * 2 ^ (e - t).toNat = q := by
      rw [zpow_shift hte, ← mul_assoc] at hvalue
      exact_mod_cast mul_right_cancel₀ (by positivity) hvalue
    have ht : e - ((e - t).toNat : Int) = t := by omega
    have hmpos : 0 < m := Nat.pos_of_mul_pos_right (hm ▸ hpos)
    have htarget : Format.binary64.targetExponent (totalExponent m e) = t := by
      rw [← totalExponent_shift hmpos e (e - t).toNat, hm, ht, targetExponent_eq h hq]
    have hexact := roundWithAccuracy_exact h hq s 0 hpos
    simp only [pow_zero, Nat.mul_one, Nat.cast_zero, sub_zero] at hexact
    simp only [UnpackedFloat.round, htarget, decreaseExponent, Nat.shiftLeft_eq, hm, ht, hexact]
  · -- the mantissa is too long, and ends in zeros
    have hm : m = q * 2 ^ (t - e).toNat := by
      rw [zpow_shift het, ← mul_assoc] at hvalue
      exact_mod_cast mul_right_cancel₀ (by positivity) hvalue
    have he : t - ((t - e).toNat : Int) = e := by omega
    have hnone : (e - t).toNat = 0 := by omega
    have hexact := roundWithAccuracy_exact h hq s (t - e).toNat hpos
    have htotal := totalExponent_shift hpos t (t - e).toNat
    rw [← hm, he] at hexact htotal
    have htarget : Format.binary64.targetExponent (totalExponent m e) = t := by
      rw [htotal, targetExponent_eq h hq]
    simp only [UnpackedFloat.round, htarget, decreaseExponent, hnone, Nat.shiftLeft_zero,
      Nat.cast_zero, sub_zero, hexact]

/-! ### Storing what was computed -/

/-- **A number of 53 bits can be packed**, and is found again. -/
theorem unpack_pack {q : Nat} {t : Int} (h : InRange q t) (hq : 2 ^ 52 ≤ q) (s : Sign)
    (hpos : 0 < q) :
    (Float.Model.pack (.finite s q t hpos)).unpack = .finite s q t hpos := by
  have hleast := h.least
  have hgreatest := h.greatest
  have hmantissa := h.mantissa
  have hpack : UnpackedFloat.pack Format.binary64 (.finite s q t hpos) =
      packComponents Format.binary64 s (BitVec.ofNat 11 (t + 1075).toNat) (BitVec.ofNat 52 q) := by
    have hbiased : (t + (Format.binary64.exponentBias : Int) +
        (Format.binary64.mantissaBitsWithoutImplicit : Int)).toNat = (t + 1075).toNat := by
      simp only [Format.exponentBias]
      omega
    have hfits : ¬2 ^ 11 ≤ (t + 1075).toNat + 1 := by omega
    simp only [UnpackedFloat.pack, hbiased, h.log2_eq hq, if_neg hfits]
    rfl
  show UnpackedFloat.unpack Format.binary64 (UnpackedFloat.pack Format.binary64 _) = _
  rw [hpack]
  have hexponent : (BitVec.ofNat 11 (t + 1075).toNat).toNat = (t + 1075).toNat := by
    rw [BitVec.toNat_ofNat]
    omega
  have hspecial : BitVec.ofNat 11 (t + 1075).toNat ≠ -1#11 := by
    intro heq
    have hnat := congrArg BitVec.toNat heq
    rw [hexponent] at hnat
    change _ = 2047 at hnat
    omega
  have hnormal : BitVec.ofNat 11 (t + 1075).toNat ≠ 0#11 := by
    intro heq
    have hnat := congrArg BitVec.toNat heq
    rw [hexponent] at hnat
    change _ = 0 at hnat
    omega
  simp only [UnpackedFloat.unpack, unpackExponent_packComponents, unpackMantissa_packComponents,
    unpackSign_packComponents, Sign.ofBitVec_toBitVec, if_neg hspecial, if_neg hnormal]
  congr 1
  · rw [BitVec.toNat_append, ← Nat.shiftLeft_add_eq_or_of_lt (BitVec.isLt _), BitVec.toNat_ofNat]
    show 2 ^ 52 + q % 2 ^ 52 = q
    omega
  · rw [hexponent]
    simp only [Format.exponentBias]
    omega

/-! ### Integers -/

/-- An integer up to `2 ^ 53`, written with 53 bits. -/
theorem exists_mantissa {n : Nat} (hpos : 0 < n) (hn : n ≤ 2 ^ 53) :
    ∃ q t, InRange q t ∧ 2 ^ 52 ≤ q ∧ (q : ℚ) * 2 ^ t = n := by
  obtain rfl | hlt := Nat.eq_or_lt_of_le hn
  · exact ⟨2 ^ 52, 1, ⟨by decide, by decide, by decide, .inl (le_refl _)⟩, le_refl _, by norm_num⟩
  · obtain ⟨hle, hnext⟩ := (Nat.log2_eq_iff (Nat.ne_of_gt hpos)).1 (rfl : n.log2 = n.log2)
    have hlog : n.log2 ≤ 52 := by
      by_contra h
      have : 2 ^ 53 ≤ 2 ^ n.log2 := Nat.pow_le_pow_right (by decide) (by omega)
      omega
    have hlow : 2 ^ 52 ≤ n * 2 ^ (52 - n.log2) := by
      calc 2 ^ 52 = 2 ^ n.log2 * 2 ^ (52 - n.log2) := by
            rw [← Nat.pow_add]
            congr 1
            omega
        _ ≤ n * 2 ^ (52 - n.log2) := Nat.mul_le_mul_right _ hle
    have hhigh : n * 2 ^ (52 - n.log2) < 2 ^ 53 := by
      calc n * 2 ^ (52 - n.log2) < 2 ^ (n.log2 + 1) * 2 ^ (52 - n.log2) :=
            Nat.mul_lt_mul_of_pos_right hnext (Nat.pow_pos (by decide))
        _ = 2 ^ 53 := by
            rw [← Nat.pow_add]
            congr 1
            omega
    refine ⟨n * 2 ^ (52 - n.log2), (n.log2 : Int) - 52, ⟨hhigh, by omega, by omega, .inl hlow⟩, hlow, ?_⟩
    push_cast
    rw [mul_assoc, ← zpow_natCast, ← zpow_add₀ (by norm_num)]
    have hzero : ((52 - n.log2 : Nat) : Int) + ((n.log2 : Int) - 52) = 0 := by omega
    rw [hzero, zpow_zero, mul_one]

theorem value?_ofModel_zero (s : Sign) : value? (.ofModel (.pack (.zero s))) = some 0 := by
  rw [value?_eq]
  have hunpack : (Float.Model.pack (.zero s)).unpack = .zero s := unpack_packedZero
  simp only [hunpack]

/-- **An integer up to `2 ^ 53` is not rounded**, however it is written. -/
theorem value?_round {k n : Nat} {e : Int} (hvalue : (k : ℚ) * 2 ^ e = n) (hpos : 0 < n)
    (hn : n ≤ 2 ^ 53) (s : Sign) :
    value? (.ofModel (.pack (UnpackedFloat.round Format.binary64 s k e))) = some (s.apply n : ℚ) := by
  obtain ⟨q, t, hrange, hq, hqt⟩ := exists_mantissa hpos hn
  have hqpos : 0 < q := by omega
  rw [round_exact hrange hq hqpos s (hvalue.trans hqt.symm), value?_eq]
  simp only [unpack_pack hrange hq s hqpos]
  congr 1
  cases s with
  | positive => exact hqt
  | negative =>
      simp only [Sign.apply]
      push_cast
      rw [neg_mul, hqt]

theorem cast_toNat {n : Int} (h : 0 ≤ n) : (n.toNat : ℚ) = n := by
  exact_mod_cast Int.toNat_of_nonneg h

theorem value?_normalize {m e n : Int} (hvalue : (m : ℚ) * 2 ^ e = n) (hn : |n| ≤ 2 ^ 53) :
    value? (.ofModel (.pack (UnpackedFloat.normalize Format.binary64 m e .positive))) =
      some (n : ℚ) := by
  have hpow : (0 : ℚ) < 2 ^ e := by positivity
  obtain ⟨hlow, hhigh⟩ := abs_le.1 hn
  unfold UnpackedFloat.normalize
  rcases lt_trichotomy m 0 with hm | rfl | hm
  · have hneg : n < 0 := by
      have : (n : ℚ) < 0 := hvalue ▸ mul_neg_of_neg_of_pos (by exact_mod_cast hm) hpow
      exact_mod_cast this
    have hcast : ((-m).toNat : ℚ) * 2 ^ e = (-n).toNat := by
      rw [cast_toNat (by omega), cast_toNat (by omega), Int.cast_neg, Int.cast_neg, neg_mul, hvalue]
    rw [compare_lt_iff_lt.2 hm]
    simp only
    rw [value?_round hcast (by omega) (by omega), Sign.apply, Int.toNat_of_nonneg (by omega), neg_neg]
  · have hzero : n = 0 := by
      rw [Int.cast_zero, zero_mul] at hvalue
      exact_mod_cast hvalue.symm
    rw [compare_eq_iff_eq.2 rfl, hzero]
    exact value?_ofModel_zero .positive
  · have hpos : 0 < n := by
      have : (0 : ℚ) < n := hvalue ▸ mul_pos (by exact_mod_cast hm) hpow
      exact_mod_cast this
    have hcast : (m.toNat : ℚ) * 2 ^ e = n.toNat := by
      rw [cast_toNat (by omega), cast_toNat (by omega), hvalue]
    rw [compare_gt_iff_gt.2 hm]
    simp only
    rw [value?_round hcast (by omega) (by omega), Sign.apply, Int.toNat_of_nonneg (by omega)]

/-- A number that is aligned to a lesser exponent keeps its value. -/
theorem aligned_value (s : Sign) (m : Nat) {e f : Int} (h : f ≤ e) :
    (s.apply (m <<< (e - f).toNat : Nat) : ℚ) * 2 ^ f = s.apply m * 2 ^ e := by
  rw [Nat.shiftLeft_eq, zpow_shift h]
  cases s with
  | positive =>
      simp only [Sign.apply]
      push_cast
      ring
  | negative =>
      simp only [Sign.apply]
      push_cast
      ring

/-- One as it is stored. -/
theorem unpack_one :
    (1.0 : Float).toModel.unpack = .finite .positive (2 ^ 52) (-52) (by decide) := by
  have hone : (1.0 : Float) = .ofModel (.pack (.finite .positive (2 ^ 52) (-52) (by decide))) :=
    Float.toBits_inj.1 (by decide +kernel)
  rw [hone]
  exact unpack_pack ⟨by decide, by decide, by decide, .inl (le_refl _)⟩ (le_refl _) .positive _

theorem one_value : ((Sign.positive.apply (2 ^ 52 : Nat) : Int) : ℚ) * 2 ^ (-52 : Int) = 1 := by
  norm_num [Sign.apply]

/-- **Adding one to an integer is exact.** -/
theorem value?_add_one {x : Float} {n : Int} (hx : value? x = some (n : ℚ)) (hn : |n + 1| ≤ 2 ^ 53) :
    value? (x + 1.0) = some ((n + 1 : Int) : ℚ) := by
  have hadd : x + 1.0 = .ofModel (.pack (UnpackedFloat.add Format.binary64 x.toModel.unpack
      (1.0 : Float).toModel.unpack)) := rfl
  rcases unpack_of_value hx with ⟨s, hu, h0⟩ | ⟨s, m, e, hm, hu, -, hv⟩
  · have hzero : n = 0 := by exact_mod_cast h0
    have hone : UnpackedFloat.add Format.binary64 (.zero s) (1.0 : Float).toModel.unpack =
        (1.0 : Float).toModel.unpack := by
      rw [unpack_one]
      rfl
    rw [hadd, hu, hone, hzero]
    decide +kernel
  · rw [hadd, hu, unpack_one]
    refine value?_normalize ?_ hn
    rw [Int.cast_add, Int.cast_add, add_mul, aligned_value s m (min_le_left e (-52)),
      aligned_value .positive (2 ^ 52) (min_le_right e (-52)), ← hv, one_value, Int.cast_one]

/-- **Subtracting one from an integer is exact.** -/
theorem value?_sub_one {x : Float} {n : Int} (hx : value? x = some (n : ℚ)) (hn : |n - 1| ≤ 2 ^ 53) :
    value? (x - 1.0) = some ((n - 1 : Int) : ℚ) := by
  have hsub : x - 1.0 = .ofModel (.pack (UnpackedFloat.sub Format.binary64 x.toModel.unpack
      (1.0 : Float).toModel.unpack)) := rfl
  rcases unpack_of_value hx with ⟨s, hu, h0⟩ | ⟨s, m, e, hm, hu, -, hv⟩
  · have hzero : n = 0 := by exact_mod_cast h0
    rw [hsub, hu, unpack_one, hzero]
    cases s <;> decide +kernel
  · rw [hsub, hu, unpack_one]
    refine value?_normalize ?_ hn
    rw [Int.cast_sub, Int.cast_sub, sub_mul, aligned_value s m (min_le_left e (-52)),
      aligned_value .positive (2 ^ 52) (min_le_right e (-52)), ← hv, one_value, Int.cast_one]

end BisayaLang.Number
