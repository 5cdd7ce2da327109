/-
**Problems and notices.**

What a user is told about a program carries the source text along, so that it can point into it: a
*problem* is why a program was not run to its end, a *notice* is a warning.

Main definitions:

* `BisayaLang.Problem` — why a program was not run to its end;
* `BisayaLang.Problem.summary` — a problem in a few words;
* `BisayaLang.Notice` — a warning about a source.
-/

import BisayaLang.Execution.Failure
import BisayaLang.Grammar.Fault

set_option relaxedAutoImplicit false
set_option autoImplicit false

namespace BisayaLang

/-- Why a program was not run to its end. -/
inductive Problem where
  /-- the source is no program -/
  | rejected (path source : String) (e : SyntaxError)
  /-- the program failed -/
  | failed (path source : String) (e : RuntimeError)
  /-- the source could not be read -/
  | unreadable (kind : IoKind)

/-- A problem in a few words. -/
def Problem.summary : Problem → String
  | .rejected .. => "failed to parse source code"
  | .failed .. => "program stopped with a runtime error"
  | .unreadable _ => "IO operation failed"

/-- A warning about a source. -/
structure Notice where
  path : String
  source : String
  warning : Warning

end BisayaLang
