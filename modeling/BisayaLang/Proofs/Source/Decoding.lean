/-
**What decoders have in common.**

Of a decoder it is known that it gives the characters of a text, and nothing else.  Of bytes that are no
text it gives the characters up to where they break off, and then a failure; what it answers when it is
asked once more is its own affair.  The decoder of a command is one of this kind.

Main definitions:

* `BisayaLang.Decoder.ReadsTexts` — a text is given by its characters;
* `BisayaLang.Decoder.FailsBehindTexts` — where a text breaks off there is a failure.

Main results:

* `BisayaLang.Utf8.decoder_readsTexts`, `BisayaLang.Utf8.decoder_failsBehindTexts` — the decoder of a
  command does both;
* `BisayaLang.Decoder.exists_gives` — **any file is given by the characters of some text**, and then it ends
  or comes to a failure.
-/

import BisayaLang.Proofs.Source.Utf8
import BisayaLang.Proofs.Token.Viewing

set_option relaxedAutoImplicit false
set_option autoImplicit false

namespace BisayaLang

namespace Decoder

/-- Of the bytes of a text the decoder gives the characters, and nothing behind them. -/
def ReadsTexts (d : Decoder) : Prop :=
  ∀ text, d (Utf8.encode text) = text.toList.map .char

/-- Of bytes that break off the decoder gives the characters of the text before, and then a failure.  What
it answers behind that is left open. -/
def FailsBehindTexts (d : Decoder) : Prop :=
  ∀ bytes text bad, Utf8.BreaksOff bytes text bad →
    ∃ kind later, d bytes = text.toList.map .char ++ .failure kind :: later

end Decoder

namespace Utf8

theorem map_ofItem_ok (cs : List Char) :
    (cs.map .ok).map Answer.ofItem = cs.map .char := by
  rw [List.map_map]
  rfl

theorem decoder_readsTexts : decoder.ReadsTexts := by
  intro text
  unfold decoder
  rw [readAll_encode, map_ofItem_ok]

theorem decoder_failsBehindTexts : decoder.FailsBehindTexts := by
  intro bytes text bad h
  obtain ⟨fault, later, hread⟩ := h.readAll_eq
  refine ⟨.ofFault fault, later.map .ofItem, ?_⟩
  unfold decoder
  rw [hread, List.map_append, map_ofItem_ok]
  rfl

end Utf8

/-- **Any file is given by the characters of some text**, and then it ends or comes to a failure. -/
theorem Decoder.exists_gives {d : Decoder} (hd : d.ReadsTexts) (hd' : d.FailsBehindTexts)
    (bytes : List UInt8) : ∃ text : String, (Feed.start (d bytes)).Gives text.toList := by
  by_cases h : ∃ text, Utf8.encode text = bytes
  · obtain ⟨text, rfl⟩ := h
    exact ⟨text, .inl (hd text)⟩
  · obtain ⟨bad, hbad⟩ := Utf8.breaksOff_of_no_text fun text ht => h ⟨text, ht⟩
    exact ⟨_, .inr (hd' _ _ _ hbad)⟩

end BisayaLang
