/-
**Sessions.**

In a session several programs run one after the other on one machine: each finds the variables and the
input as the one before left them.

Main definitions:

* `BisayaLang.Machine.next` — runs the next program of a session.
-/

import BisayaLang.Execution.Machine
import BisayaLang.Grammar.Program

set_option relaxedAutoImplicit false
set_option autoImplicit false

namespace BisayaLang

/-- How a program of a session ended. -/
inductive Ending where
  | finished
  | rejected (e : SyntaxError)
  | failed (e : RuntimeError)
  | outOfFuel

/-- Runs the next program of a session.  A text that is no program leaves the machine as it is. -/
def Machine.next {σ : Type} [Sink σ] (fuel : Nat) (m : Machine σ) (source : String) :
    Ending × Machine σ :=
  match parseProgram source with
  | .error e => (.rejected e, m)
  | .ok parsed =>
      match (parsed.program.exec fuel).run m with
      | .ok () m => (.finished, m)
      | .error (.error e) m => (.failed e, m)
      | .error .outOfFuel m => (.outOfFuel, m)

end BisayaLang
