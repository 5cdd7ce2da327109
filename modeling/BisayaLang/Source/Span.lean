/-
**Spans of the source.**

Every token, tree node, error and warning says which part of the program text it is about by a
*span*: the byte offset where it starts and the byte offset just after it.

Main definitions:

* `BisayaLang.Span` — a pair of byte offsets;
* `BisayaLang.Span.cover` — the least span that contains two given ones;
* `BisayaLang.Span.clamp` — a span cut down to a text of a given length.
-/

set_option relaxedAutoImplicit false
set_option autoImplicit false

namespace BisayaLang

/-- A range of byte offsets into the source text, `stop` excluded. -/
structure Span where
  start : Nat
  stop : Nat
  deriving DecidableEq, Inhabited

namespace Span

/-- The empty span at one offset. -/
def point (offset : Nat) : Span := ⟨offset, offset⟩

/-- The span from the earlier start to the later stop. -/
def cover (a b : Span) : Span := ⟨min a.start b.start, max a.stop b.stop⟩

/-- Both ends moved back to the end of a text of `size` bytes, where they lie beyond it. -/
def clamp (s : Span) (size : Nat) : Span := ⟨min s.start size, min s.stop size⟩

/-- The two offsets with two dots between them. -/
def text (s : Span) : String := toString s.start ++ ".." ++ toString s.stop

@[simp] theorem cover_start (a b : Span) : (a.cover b).start = min a.start b.start := rfl

@[simp] theorem cover_stop (a b : Span) : (a.cover b).stop = max a.stop b.stop := rfl

/-- Cutting down a span that already lies in the text changes nothing. -/
theorem clamp_of_le {s : Span} {size : Nat} (h₁ : s.start ≤ s.stop) (h₂ : s.stop ≤ size) :
    s.clamp size = s := by
  cases s
  simp only [clamp, Span.mk.injEq] at *
  omega

end Span

end BisayaLang
