/-
**Diagnostics as text.**

Main definitions:

* `BisayaLang.Color`, `BisayaLang.Style` — how a terminal shows a text;
* `BisayaLang.Style.paint` — a text with the codes that switch a style on and off;
* `BisayaLang.Diagnostic.render` — a diagnostic as text;
* `BisayaLang.Problem.render`, `BisayaLang.Notice.render` — a problem and a notice as text.
-/

import BisayaLang.Report.Snippet

set_option relaxedAutoImplicit false
set_option autoImplicit false

namespace BisayaLang

/-- Colours of a terminal. -/
inductive Color where
  | red | green | yellow | magenta | cyan
  deriving DecidableEq

/-- The number of a colour. -/
def Color.code : Color → Nat
  | .red => 1
  | .green => 2
  | .yellow => 3
  | .magenta => 5
  | .cyan => 6

/-- How a terminal shows a text: always bold, maybe in a colour, which may be a bright one. -/
structure Style where
  color : Option Color
  bright : Bool

namespace Style

/-- The code with the given parameters. -/
def code (parameters : String) : String := "\x1b[" ++ parameters ++ "m"

/-- The code that ends all styles. -/
def reset : String := code "0"

/-- The codes that switch a style on. -/
def on (s : Style) : String :=
  let color := match s.color with
    | none => ""
    | some c => if s.bright then code ("38;5;" ++ toString (8 + c.code)) else code (toString (30 + c.code))
  reset ++ code "1" ++ color

/-- A text in a style, if colours are wanted.  The style is left on. -/
def start (s : Style) (colored : Bool) (text : String) : String :=
  if colored then s.on ++ text else text

/-- The end of all styles, if colours are wanted. -/
def finish (colored : Bool) : String := if colored then reset else ""

end Style

/-- The colour of a level. -/
def Level.color : Level → Color
  | .error => .red
  | .warning => .yellow

/-- The head of a diagnostic without a place. -/
def Diagnostic.headline (d : Diagnostic) (colored : Bool) : String :=
  Style.start ⟨some d.level.color, false⟩ colored d.level.word ++
    Style.start ⟨none, false⟩ colored (": " ++ d.title ++ "\n\n") ++ Style.finish colored

/-- The head of a diagnostic with a place: the title and the snippet. -/
def Diagnostic.illustrated (d : Diagnostic) (loc : Location) : String :=
  String.join (((d.level.word ++ ": " ++ d.title) :: Snippet.draw loc ++ [""]).map (· ++ "\n"))

/-- A diagnostic as text.  Only the head of a diagnostic without a place has colours. -/
def Diagnostic.render (d : Diagnostic) (colored : Bool) : String :=
  let head := match d.location with
    | some loc => d.illustrated loc
    | none => d.headline colored
  let text := if d.text.isEmpty then "" else d.text ++ "\n"
  let hint := match d.hint with
    | some h => "hint: " ++ h ++ "\n"
    | none => ""
  head ++ text ++ hint

/-- A problem as text, with an empty line behind it. -/
def Problem.render (p : Problem) (colored : Bool) : String := p.diagnostic.render colored ++ "\n"

/-- A notice as text, with an empty line behind it. -/
def Notice.render (n : Notice) (colored : Bool) : String := n.diagnostic.render colored ++ "\n"

end BisayaLang
