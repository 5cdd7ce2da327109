/-
**Decoders.**

Whoever reads a file character by character asks a *decoder*, again and again.  Each time the decoder
answers with a character, with a failure, or with nothing at all.  Which bytes are no character, what kind
of failure that is, and where decoding goes on behind it, is up to the decoder.

Main definitions:

* `BisayaLang.Answer` — what a decoder answers;
* `BisayaLang.Decoder` — the answers for the bytes of a file, in order;
* `BisayaLang.Utf8.decoder` — the decoder that goes on behind the bytes that it has looked at.
-/

import BisayaLang.Source.IoKind

set_option relaxedAutoImplicit false
set_option autoImplicit false

namespace BisayaLang

/-- What a decoder answers when it is asked for a character. -/
inductive Answer where
  | char (c : Char)
  | failure (kind : IoKind)
  | nothing
  deriving DecidableEq

/-- A decoder gives the answers for the bytes of a file, one for each time that it is asked.  Behind the
last of them it answers nothing for good. -/
abbrev Decoder := List UInt8 → List Answer

/-- A character or a fault as an answer. -/
def Answer.ofItem : Except Utf8.Fault Char → Answer
  | .ok c => .char c
  | .error fault => .failure (.ofFault fault)

/-- The decoder that takes a sequence of bytes without a character for one failure, and goes on behind
it. -/
def Utf8.decoder : Decoder := fun bytes => (Utf8.readAll bytes).map .ofItem

end BisayaLang
