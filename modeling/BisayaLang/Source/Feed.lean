/-
**Reading a file character by character.**

A feed delivers the characters of a file one at a time, with their offsets, and keeps what it has
delivered.  Where the decoder answers with a failure it delivers nothing, which looks like the end of the
file, and remembers the failure; asked again, it goes on with the next answer.

Main definitions:

* `BisayaLang.Feed` — the answers that are left, and what has been delivered;
* `BisayaLang.Feed.pull` — asks for a character.
-/

import BisayaLang.Source.Decoder

set_option relaxedAutoImplicit false
set_option autoImplicit false

namespace BisayaLang

/-- A file that is read character by character. -/
structure Feed where
  /-- what the decoder still has to answer -/
  answers : List Answer
  /-- the offset of the next character -/
  offset : Nat
  /-- the characters delivered so far -/
  text : String
  /-- the last failure, if there was any -/
  failure : Option IoKind

namespace Feed

/-- The feed of some answers from their beginning. -/
def start (answers : List Answer) : Feed := ⟨answers, 0, "", none⟩

/-- Asks for a character. -/
def pull (f : Feed) : Option (Nat × Char) × Feed :=
  match f.answers with
  | [] => (none, f)
  | .char c :: answers =>
      (some (f.offset, c), ⟨answers, f.offset + c.utf8Size, f.text.push c, f.failure⟩)
  | .failure kind :: answers => (none, { f with answers, failure := some kind })
  | .nothing :: answers => (none, { f with answers })

/-- A character takes an answer, so that there are fewer left behind it. -/
theorem length_pull_le (f : Feed) :
    f.pull.2.answers.length + f.pull.1.toList.length ≤ f.answers.length := by
  unfold pull
  split
  · rename_i h
    rw [h]
    exact Nat.le_refl _
  all_goals
    rename_i h
    simp [h]

end Feed

end BisayaLang
