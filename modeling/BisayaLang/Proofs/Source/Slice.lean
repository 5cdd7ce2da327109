/-
**Parts of a text.**

A span is a pair of byte offsets, and not every pair of numbers marks a part of a text: both offsets
have to lie between characters, and the first may not come after the second.  A span that fits a text
marks exactly one part of it.

Main definitions:

* `BisayaLang.byteLength` — the number of bytes that characters take;
* `BisayaLang.CharBoundary` — an offset between two characters of a text, or at one of its ends;
* `BisayaLang.Span.Fits` — a span marks a part of a text;
* `BisayaLang.Slice` — the part that a span marks.

Main results:

* `BisayaLang.Span.fits_iff` — **a span fits a text exactly when it marks a part of it**;
* `BisayaLang.Span.Fits.of_front` — a span of a text that ends within a front part of it fits that part.
-/

import BisayaLang.Source.Span

set_option relaxedAutoImplicit false
set_option autoImplicit false

namespace BisayaLang

/-! ### Bytes -/

/-- The number of bytes that characters take. -/
def byteLength : List Char → Nat
  | [] => 0
  | c :: cs => c.utf8Size + byteLength cs

@[simp] theorem byteLength_nil : byteLength [] = 0 := rfl

@[simp] theorem byteLength_cons (c : Char) (cs : List Char) :
    byteLength (c :: cs) = c.utf8Size + byteLength cs := rfl

@[simp] theorem byteLength_append (cs ds : List Char) :
    byteLength (cs ++ ds) = byteLength cs + byteLength ds := by
  induction cs with
  | nil => simp
  | cons c cs ih =>
      rw [List.cons_append, byteLength_cons, byteLength_cons, ih]
      omega

theorem byteLength_toList (text : String) : byteLength text.toList = text.utf8ByteSize := by
  have hofList : ∀ cs : List Char, (String.ofList cs).utf8ByteSize = byteLength cs := by
    intro cs
    induction cs with
    | nil => rfl
    | cons c cs ih =>
        have hcons : String.ofList (c :: cs) = String.singleton c ++ String.ofList cs := by
          rw [String.singleton_eq_ofList, ← String.ofList_append]
          rfl
        rw [hcons, String.utf8ByteSize_append, String.utf8ByteSize_singleton, ih, byteLength_cons]
  rw [← hofList, String.ofList_toList]

/-- Every character takes a byte. -/
theorem byteLength_pos {cs : List Char} (h : cs ≠ []) : 0 < byteLength cs := by
  obtain ⟨c, cs, rfl⟩ := List.exists_cons_of_ne_nil h
  have hc := c.utf8Size_pos
  rw [byteLength_cons]
  omega

theorem byteLength_le_of_front {cs ds : List Char} (h : cs <+: ds) :
    byteLength cs ≤ byteLength ds := by
  obtain ⟨rest, rfl⟩ := h
  rw [byteLength_append]
  omega

/-- Of two front parts of a text the one with fewer bytes is a front part of the other. -/
theorem prefix_of_byteLength_le {cs ds text : List Char} (hc : cs <+: text) (hd : ds <+: text)
    (hle : byteLength cs ≤ byteLength ds) : cs <+: ds := by
  rcases List.prefix_or_prefix_of_prefix hc hd with h | h
  · exact h
  · obtain ⟨rest, rfl⟩ := h
    cases rest with
    | nil => simp
    | cons c rest =>
        have hpos := c.utf8Size_pos
        rw [byteLength_append, byteLength_cons] at hle
        omega

/-! ### Boundaries -/

/-- The offset lies between two characters of the text, or at one of its ends. -/
def CharBoundary (text : List Char) (n : Nat) : Prop :=
  ∃ before, before <+: text ∧ byteLength before = n

theorem charBoundary_zero (text : List Char) : CharBoundary text 0 := ⟨[], List.nil_prefix, rfl⟩

theorem charBoundary_byteLength (text : List Char) : CharBoundary text (byteLength text) :=
  ⟨text, List.prefix_refl text, rfl⟩

theorem CharBoundary.le {text : List Char} {n : Nat} (h : CharBoundary text n) :
    n ≤ byteLength text := by
  obtain ⟨before, hb, rfl⟩ := h
  exact byteLength_le_of_front hb

theorem CharBoundary.min {text : List Char} {m n : Nat} (hm : CharBoundary text m)
    (hn : CharBoundary text n) : CharBoundary text (min m n) := by
  rcases Nat.le_total m n with h | h
  · rwa [Nat.min_eq_left h]
  · rwa [Nat.min_eq_right h]

theorem CharBoundary.max {text : List Char} {m n : Nat} (hm : CharBoundary text m)
    (hn : CharBoundary text n) : CharBoundary text (max m n) := by
  rcases Nat.le_total m n with h | h
  · rwa [Nat.max_eq_right h]
  · rwa [Nat.max_eq_left h]

/-- A boundary of a text that lies in the front part of it is a boundary of that part. -/
theorem CharBoundary.of_front {front text : List Char} {n : Nat} (h : CharBoundary text n)
    (hf : front <+: text) (hn : n ≤ byteLength front) : CharBoundary front n := by
  obtain ⟨before, hb, rfl⟩ := h
  exact ⟨before, prefix_of_byteLength_le hb hf hn, rfl⟩

/-! ### Spans that fit -/

/-- The span marks a part of the text. -/
structure Span.Fits (s : Span) (text : List Char) : Prop where
  le : s.start ≤ s.stop
  start : CharBoundary text s.start
  stop : CharBoundary text s.stop

/-- The characters `part` stand at the span. -/
def Slice (text : List Char) (s : Span) (part : List Char) : Prop :=
  ∃ before after, text = before ++ part ++ after ∧ s.start = byteLength before ∧
    s.stop = byteLength (before ++ part)

/-- **A span fits a text exactly when it marks a part of it.** -/
theorem Span.fits_iff {s : Span} {text : List Char} : s.Fits text ↔ ∃ part, Slice text s part := by
  constructor
  · rintro ⟨hle, ⟨before, hb, hstart⟩, ⟨upTo, hu, hstop⟩⟩
    have hpre : before <+: upTo := prefix_of_byteLength_le hb hu (by omega)
    obtain ⟨part, rfl⟩ := hpre
    obtain ⟨after, rfl⟩ := hu
    exact ⟨part, before, after, rfl, hstart.symm, hstop.symm⟩
  · rintro ⟨part, before, after, rfl, hstart, hstop⟩
    refine ⟨?_, ⟨before, ?_, hstart.symm⟩, ⟨before ++ part, List.prefix_append _ _, hstop.symm⟩⟩
    · rw [hstart, hstop, byteLength_append]
      omega
    · rw [List.append_assoc]
      exact List.prefix_append _ _

theorem Slice.fits {s : Span} {text part : List Char} (h : Slice text s part) : s.Fits text :=
  Span.fits_iff.2 ⟨part, h⟩

namespace Span.Fits

variable {s t : Span} {text front : List Char}

theorem stop_le (h : s.Fits text) : s.stop ≤ byteLength text := h.stop.le

/-- Cutting down a span that fits changes nothing. -/
theorem clamp_eq (h : s.Fits text) : s.clamp (byteLength text) = s := clamp_of_le h.le h.stop_le

theorem cover (hs : s.Fits text) (ht : t.Fits text) : (s.cover t).Fits text := by
  have hle := hs.le
  exact ⟨by simp only [cover_start, cover_stop]; omega, hs.start.min ht.start, hs.stop.max ht.stop⟩

/-- From the start of one span to the stop of another that does not stop before. -/
theorem extend (hs : s.Fits text) (ht : t.Fits text) (hle : s.start ≤ t.stop) :
    (Span.mk s.start t.stop).Fits text := ⟨hle, hs.start, ht.stop⟩

theorem of_front (h : s.Fits text) (hf : front <+: text) (hle : s.stop ≤ byteLength front) :
    s.Fits front :=
  ⟨h.le, h.start.of_front hf (Nat.le_trans h.le hle), h.stop.of_front hf hle⟩

end Span.Fits

theorem fits_point {text : List Char} {n : Nat} (h : CharBoundary text n) :
    (Span.point n).Fits text :=
  ⟨Nat.le_refl n, h, h⟩

end BisayaLang
