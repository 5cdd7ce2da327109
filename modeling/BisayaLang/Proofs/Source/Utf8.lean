/-
**The bytes of a text.**

Reading the bytes of a text character by character gives the characters of the text, without a fault.
Bytes that are no text hold one up to the first fault, where no character begins.

Main definitions:

* `BisayaLang.Utf8.BreaksOff` — bytes that are those of a text, and behind it no character.

Main results:

* `BisayaLang.Utf8.readChar_encodeChar` — the bytes of a character are read as that character;
* `BisayaLang.Utf8.encodeChar_of_readChar` — and no others are;
* `BisayaLang.Utf8.readAll_encode` — **the bytes of a text are read as its characters**;
* `BisayaLang.Utf8.decode?_encode` — so that they can be decoded;
* `BisayaLang.Utf8.BreaksOff.readAll_eq` — where bytes break off, a fault is read;
* `BisayaLang.Utf8.breaksOff_of_no_text` — **bytes that are no text break off**.
-/

import BisayaLang.Source.Utf8

set_option relaxedAutoImplicit false
set_option autoImplicit false

namespace BisayaLang.Utf8

theorem encode_eq_flatMap (s : String) : encode s = s.toList.flatMap String.utf8EncodeChar := by
  unfold encode
  rw [String.toUTF8_eq_toByteArray, ← String.utf8Encode_toList]
  unfold List.utf8Encode
  rw [List.data_toByteArray]

theorem encode_append (s t : String) : encode (s ++ t) = encode s ++ encode t := by
  simp [encode_eq_flatMap]

/-! ### One character -/

/-- A continuation byte gives six bits. -/
theorem continuation_cons {bits : Nat} (n acc : Nat) (bytes : List UInt8) (h : bits < 64) :
    continuation (n + 1) acc (UInt8.ofNat (bits + 0x80) :: bytes) =
      continuation n (acc * 64 + bits) bytes := by
  have hbyte : (UInt8.ofNat (bits + 0x80)).toNat = bits + 0x80 := by
    rw [UInt8.toNat_ofNat']
    omega
  rw [continuation, hbyte, if_pos (by omega), Nat.add_sub_cancel]

/-- Several bytes that give the code of a character are read as that character. -/
theorem multibyte_of_continuation {n bits least : Nat} {bytes rest : List UInt8} {c : Char}
    (hc : continuation n bits bytes = (.ok c.toNat, rest)) (hleast : least ≤ c.toNat) :
    multibyte n bits least bytes = (.ok c, rest) := by
  have hvalid : c.toNat.isValidChar := c.valid
  unfold multibyte
  rw [hc]
  simp only
  rw [if_pos ⟨hleast, hvalid⟩, Char.ofNat_toNat]

/-- **The bytes of a character are read as that character.** -/
theorem readChar_encodeChar (c : Char) (rest : List UInt8) :
    ∃ b bytes, String.utf8EncodeChar c = b :: bytes ∧
      readChar b (bytes ++ rest) = (.ok c, rest) := by
  have hlt : c.toNat < 0x110000 := by
    have hvalid : c.toNat.isValidChar := c.valid
    rcases hvalid with h | ⟨-, h⟩ <;> omega
  have hbyte : ∀ n, n < 256 → (UInt8.ofNat n).toNat = n := by
    intro n hn
    rw [UInt8.toNat_ofNat']
    omega
  unfold String.utf8EncodeChar
  simp only [Char.toNat_val]
  by_cases h₁ : c.toNat ≤ 0x7f
  · rw [if_pos h₁]
    refine ⟨_, _, rfl, ?_⟩
    unfold readChar
    simp only [hbyte c.toNat (by omega)]
    rw [if_pos (by omega), Char.ofNat_toNat]
    rfl
  rw [if_neg h₁]
  by_cases h₂ : c.toNat ≤ 0x7ff
  · rw [if_pos h₂]
    refine ⟨_, _, rfl, ?_⟩
    unfold readChar
    simp only [hbyte (c.toNat / 64 % 0x20 + 0xc0) (by omega)]
    rw [if_neg (by omega), if_neg (by omega), if_pos (by omega)]
    refine multibyte_of_continuation ?_ (by omega)
    rw [List.cons_append, continuation_cons _ _ _ (by omega), continuation]
    congr 2
    omega
  rw [if_neg h₂]
  by_cases h₃ : c.toNat ≤ 0xffff
  · rw [if_pos h₃]
    refine ⟨_, _, rfl, ?_⟩
    unfold readChar
    simp only [hbyte (c.toNat / 4096 % 0x10 + 0xe0) (by omega)]
    rw [if_neg (by omega), if_neg (by omega), if_neg (by omega), if_pos (by omega)]
    refine multibyte_of_continuation ?_ (by omega)
    rw [List.cons_append, continuation_cons _ _ _ (by omega), List.cons_append,
      continuation_cons _ _ _ (by omega), continuation]
    congr 2
    omega
  · rw [if_neg h₃]
    refine ⟨_, _, rfl, ?_⟩
    unfold readChar
    simp only [hbyte (c.toNat / 262144 % 0x08 + 0xf0) (by omega)]
    rw [if_neg (by omega), if_neg (by omega), if_neg (by omega), if_neg (by omega),
      if_pos (by omega)]
    refine multibyte_of_continuation ?_ (by omega)
    rw [List.cons_append, continuation_cons _ _ _ (by omega), List.cons_append,
      continuation_cons _ _ _ (by omega), List.cons_append, continuation_cons _ _ _ (by omega),
      continuation]
    congr 2
    omega

/-! ### From the bytes back to the character -/

theorem toNat_ofNat_of_valid {code : Nat} (h : code.isValidChar) :
    (Char.ofNat code).toNat = code := by
  unfold Char.ofNat
  rw [dif_pos h]
  rfl

/-- What gave bits was a continuation byte. -/
theorem of_continuation {n acc code : Nat} {bytes rest : List UInt8}
    (h : continuation (n + 1) acc bytes = (.ok code, rest)) :
    ∃ bits bytes', bits < 64 ∧ bytes = UInt8.ofNat (bits + 0x80) :: bytes' ∧
      continuation n (acc * 64 + bits) bytes' = (.ok code, rest) := by
  cases bytes with
  | nil => cases h
  | cons b bytes =>
      rw [continuation] at h
      split at h
      · rename_i hb
        refine ⟨b.toNat - 0x80, bytes, by omega, ?_, h⟩
        rw [Nat.sub_add_cancel hb.1, UInt8.ofNat_toNat]
      · cases h

theorem of_continuation_zero {acc code : Nat} {bytes rest : List UInt8}
    (h : continuation 0 acc bytes = (.ok code, rest)) : code = acc ∧ bytes = rest := by
  cases h
  exact ⟨rfl, rfl⟩

theorem of_multibyte {n bits least : Nat} {bytes rest : List UInt8} {c : Char}
    (h : multibyte n bits least bytes = (.ok c, rest)) :
    continuation n bits bytes = (.ok c.toNat, rest) ∧ least ≤ c.toNat := by
  unfold multibyte at h
  split at h
  · cases h
  · rename_i code rest' hcont
    split at h
    · rename_i hcode
      cases h
      rw [toNat_ofNat_of_valid hcode.2]
      exact ⟨hcont, hcode.1⟩
    · cases h

/-- **What was read as a character are its bytes.** -/
theorem encodeChar_of_readChar {b : UInt8} {bytes rest : List UInt8} {c : Char}
    (h : readChar b bytes = (.ok c, rest)) :
    b :: bytes = String.utf8EncodeChar c ++ rest := by
  have hlt := b.toNat_lt
  unfold readChar at h
  unfold String.utf8EncodeChar
  simp only [Char.toNat_val] at h ⊢
  split at h
  · cases h
    rw [toNat_ofNat_of_valid (.inl (by omega)), if_pos (by omega), UInt8.ofNat_toNat]
    rfl
  split at h
  · cases h
  split at h
  · obtain ⟨h₀, hleast⟩ := of_multibyte h
    obtain ⟨x, bytes₁, hx, rfl, h₁⟩ := of_continuation h₀
    obtain ⟨hc, rfl⟩ := of_continuation_zero h₁
    rw [hc] at hleast ⊢
    have hb : ((b.toNat - 0xC0) * 64 + x) / 64 % 0x20 + 0xC0 = b.toNat := by omega
    have hx' : ((b.toNat - 0xC0) * 64 + x) % 64 = x := by omega
    rw [if_neg (by omega), if_pos (by omega), hb, UInt8.ofNat_toNat, hx']
    rfl
  split at h
  · obtain ⟨h₀, hleast⟩ := of_multibyte h
    obtain ⟨x, bytes₁, hx, rfl, h₁⟩ := of_continuation h₀
    obtain ⟨y, bytes₂, hy, rfl, h₂⟩ := of_continuation h₁
    obtain ⟨hc, rfl⟩ := of_continuation_zero h₂
    rw [hc] at hleast ⊢
    have hb : (((b.toNat - 0xE0) * 64 + x) * 64 + y) / 4096 % 0x10 + 0xE0 = b.toNat := by omega
    have hx' : (((b.toNat - 0xE0) * 64 + x) * 64 + y) / 64 % 64 = x := by omega
    have hy' : (((b.toNat - 0xE0) * 64 + x) * 64 + y) % 64 = y := by omega
    rw [if_neg (by omega), if_neg (by omega), if_pos (by omega), hb, UInt8.ofNat_toNat, hx', hy']
    rfl
  split at h
  · obtain ⟨h₀, hleast⟩ := of_multibyte h
    obtain ⟨x, bytes₁, hx, rfl, h₁⟩ := of_continuation h₀
    obtain ⟨y, bytes₂, hy, rfl, h₂⟩ := of_continuation h₁
    obtain ⟨z, bytes₃, hz, rfl, h₃⟩ := of_continuation h₂
    obtain ⟨hc, rfl⟩ := of_continuation_zero h₃
    rw [hc] at hleast ⊢
    have hb : ((((b.toNat - 0xF0) * 64 + x) * 64 + y) * 64 + z) / 262144 % 0x08 + 0xF0 = b.toNat := by
      omega
    have hx' : ((((b.toNat - 0xF0) * 64 + x) * 64 + y) * 64 + z) / 4096 % 64 = x := by omega
    have hy' : ((((b.toNat - 0xF0) * 64 + x) * 64 + y) * 64 + z) / 64 % 64 = y := by omega
    have hz' : ((((b.toNat - 0xF0) * 64 + x) * 64 + y) * 64 + z) % 64 = z := by omega
    rw [if_neg (by omega), if_neg (by omega), if_neg (by omega), hb, UInt8.ofNat_toNat, hx', hy', hz']
    rfl
  · cases h

/-! ### A text -/

/-- The bytes of a text are read as its characters, whatever stands behind them. -/
theorem readAll_encode_append (s : String) (rest : List UInt8) :
    readAll (encode s ++ rest) = s.toList.map .ok ++ readAll rest := by
  rw [encode_eq_flatMap]
  induction s.toList with
  | nil => rfl
  | cons c cs ih =>
      obtain ⟨b, bytes, hc, hread⟩ :=
        readChar_encodeChar c (cs.flatMap String.utf8EncodeChar ++ rest)
      rw [List.flatMap_cons, hc, List.append_assoc, List.cons_append, readAll, hread, ih]
      rfl

/-- **The bytes of a text are read as its characters.** -/
theorem readAll_encode (s : String) : readAll (encode s) = s.toList.map .ok := by
  have h := readAll_encode_append s []
  rwa [List.append_nil, readAll, List.append_nil] at h

theorem splitAtFault_map_ok (cs : List Char) : splitAtFault (cs.map .ok) = (cs, []) := by
  induction cs with
  | nil => rfl
  | cons c cs ih => rw [List.map_cons, splitAtFault, ih]

theorem decode?_encode (s : String) : decode? (encode s) = some s.toList := by
  unfold decode?
  rw [readAll_encode, splitAtFault_map_ok]

/-! ### Bytes that are no text -/

/-- The bytes are those of a text, and behind it others that no character begins. -/
structure BreaksOff (bytes : List UInt8) (text : String) (bad : List UInt8) : Prop where
  bytes_eq : bytes = encode text ++ bad
  bad_ne : bad ≠ []
  no_char : ∀ c rest, bad ≠ String.utf8EncodeChar c ++ rest

/-- Bytes are read as characters up to bytes that no character begins. -/
theorem bytes_readAll (bytes : List UInt8) :
    ∃ bad, bytes = (splitAtFault (readAll bytes)).1.flatMap String.utf8EncodeChar ++ bad ∧
      ∀ c rest, bad ≠ String.utf8EncodeChar c ++ rest := by
  induction bytes using readAll.induct with
  | case1 =>
      rw [readAll]
      refine ⟨[], rfl, fun c rest h => ?_⟩
      obtain ⟨b, bytes, hc, -⟩ := readChar_encodeChar c rest
      rw [hc] at h
      cases h
  | case2 b bytes ih =>
      rw [readAll]
      cases hread : readChar b bytes with
      | mk item rest =>
          cases item with
          | error fault =>
              refine ⟨b :: bytes, rfl, fun c back h => ?_⟩
              obtain ⟨b', bytes', hc, hchar⟩ := readChar_encodeChar c back
              rw [hc, List.cons_append] at h
              obtain ⟨rfl, rfl⟩ := List.cons.inj h
              rw [hread] at hchar
              cases hchar
          | ok c =>
              rw [hread] at ih
              obtain ⟨bad, hrest, hbad⟩ := ih
              refine ⟨bad, ?_, hbad⟩
              rw [encodeChar_of_readChar hread, splitAtFault, List.flatMap_cons, List.append_assoc,
                ← hrest]

/-- Where bytes break off, a fault is read. -/
theorem BreaksOff.readAll_eq {bytes bad : List UInt8} {text : String} (h : BreaksOff bytes text bad) :
    ∃ fault later, readAll bytes = text.toList.map .ok ++ .error fault :: later := by
  obtain ⟨b, rest, hbad⟩ := List.exists_cons_of_ne_nil h.bad_ne
  rw [h.bytes_eq, readAll_encode_append, hbad, readAll]
  cases hread : readChar b rest with
  | mk item back =>
      cases item with
      | error fault => exact ⟨fault, _, rfl⟩
      | ok c => exact absurd (hbad.trans (encodeChar_of_readChar hread)) (h.no_char c back)

/-- **Bytes that are no text break off** behind the characters before the first fault. -/
theorem breaksOff_of_no_text {bytes : List UInt8} (h : ∀ text, encode text ≠ bytes) :
    ∃ bad, BreaksOff bytes (String.ofList (splitAtFault (readAll bytes)).1) bad := by
  obtain ⟨bad, hbytes, hbad⟩ := bytes_readAll bytes
  have heq : bytes = encode (String.ofList (splitAtFault (readAll bytes)).1) ++ bad := by
    rw [encode_eq_flatMap, String.toList_ofList]
    exact hbytes
  refine ⟨bad, heq, ?_, hbad⟩
  rintro rfl
  rw [List.append_nil] at heq
  exact h _ heq.symm

end BisayaLang.Utf8
