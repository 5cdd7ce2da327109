/-
**Diagnostics.**

A diagnostic is what a user reads about a problem or a notice: a title, a text, maybe a hint, and maybe
a place in the source, with labels that point at parts of it.

Main definitions:

* `BisayaLang.Diagnostic` — a diagnostic;
* `BisayaLang.Location`, `BisayaLang.Label` — the place, and the parts of the source it points at;
* `BisayaLang.Problem.diagnostic`, `BisayaLang.Notice.diagnostic` — what a user reads about a problem and
  about a notice.
-/

import BisayaLang.Run.Problem

set_option relaxedAutoImplicit false
set_option autoImplicit false

namespace BisayaLang

/-- How serious a diagnostic is. -/
inductive Level where
  | error | warning
  deriving DecidableEq

/-- The word for a level. -/
def Level.word : Level → String
  | .error => "error"
  | .warning => "warning"

/-- A part of the source, with a remark. -/
structure Label where
  text : Option String
  span : Span

/-- A place in a source: what the diagnostic is about, and other parts to look at. -/
structure Location where
  path : String
  source : String
  label : Label
  others : List Label

/-- What a user reads about a program. -/
structure Diagnostic where
  title : String
  text : String
  hint : Option String
  level : Level
  location : Option Location

/-- The span that a rejected program is shown with.  Where the text ends too early, that is its end. -/
def SyntaxError.shownSpan (e : SyntaxError) (source : String) : Span :=
  match e.fault with
  | .unexpectedEnd _ | .expectedKatapusan => .point source.utf8ByteSize
  | _ => e.span

/-- The title for a rejected program. -/
def SyntaxFault.headline : SyntaxFault → String
  | .lexical _ => "Lexical error"
  | _ => "Syntax error"

/-- What helps against some faults. -/
def RuntimeFault.hint? : RuntimeFault → Option String
  | .undefinedVariable name => some ("Declare it first, e.g. `MUGNA NUMERO " ++ name ++ "`")
  | .invalidCharacterExpression =>
      some "LETRA values are not computed, assign a literal like 'a'"
  | .insufficientInput .. => some "Separate the values with commas on a single line"
  | _ => none

/-- What a user reads about a problem. -/
def Problem.diagnostic : Problem → Diagnostic
  | .rejected path source e =>
      { title := e.fault.headline
        text := String.intercalate "\n" e.fault.lines
        hint := none
        level := .error
        location := some ⟨path, source, ⟨some e.fault.title, e.shownSpan source⟩, []⟩ }
  | .failed path source e =>
      { title := "Runtime error"
        text := e.fault.message
        hint := e.fault.hint?
        level := .error
        location := some ⟨path, source, ⟨some e.fault.title, e.span⟩, []⟩ }
  | .unreadable kind =>
      { title := "Standard IO error"
        text := kind.message
        hint := none
        level := .error
        location := none }

/-- What a user reads about a notice. -/
def Notice.diagnostic (n : Notice) : Diagnostic :=
  match n.warning with
  | .redeclaration name previous current span =>
      { title := "Variable redeclared"
        text := "`" ++ name ++ "` was " ++ previous.word ++ " and is now " ++ current.word ++
          ", its old value is discarded."
        hint := none
        level := .warning
        location := some ⟨n.path, n.source, ⟨some "Declared again here", span⟩, []⟩ }
  | .unreachableCode span =>
      { title := "Unreachable code"
        text := "Nothing after `KATAPUSAN` is executed."
        hint := none
        level := .warning
        location := some ⟨n.path, n.source, ⟨none, span⟩, []⟩ }

end BisayaLang
