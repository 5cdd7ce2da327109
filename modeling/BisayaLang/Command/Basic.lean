/-
**The command line.**

A command runs a program, only checks it, or lists tokens.  What a command does depends on nothing but
its setting: the bytes of the file, those of the input, whether colours are wanted, and how long it
took.

Main definitions:

* `BisayaLang.Command`, `BisayaLang.Command.ofArgs?` — the commands, and how they are given;
* `BisayaLang.Setting` — what a command depends on;
* `BisayaLang.Console` — what a command leaves behind;
* `BisayaLang.Command.execute` — carries out a command.
-/

import BisayaLang.Command.Listing
import BisayaLang.Report.Render
import BisayaLang.Run.Stream
import BisayaLang.Tree.Canonical
import BisayaLang.Tree.Dump

set_option relaxedAutoImplicit false
set_option autoImplicit false

namespace BisayaLang

/-- The commands. -/
inductive Command where
  /-- runs a program, with lines on its progress unless they are unwanted -/
  | run (path : String) (quiet : Bool)
  /-- parses a program and shows its canonical text or its tree -/
  | check (path : String) (tree : Bool)
  /-- lists the tokens of lines -/
  | list

/-- Splits a path and at most one flag, in either order. -/
def pathAndFlag? (flags : List String) : List String → Option (String × Bool)
  | [a] => if flags.contains a then none else some (a, false)
  | [a, b] =>
      if flags.contains a then some (b, true)
      else if flags.contains b then some (a, true)
      else none
  | _ => none

/-- The command that arguments spell. -/
def Command.ofArgs? : List String → Option Command
  | "run" :: args => (pathAndFlag? ["-q", "--quiet"] args).map fun (path, quiet) => .run path quiet
  | "check" :: args => (pathAndFlag? ["--print-ast"] args).map fun (path, tree) => .check path tree
  | ["rlpl"] => some .list
  | _ => none

/-- The path of the file that a command reads. -/
def Command.path? : Command → Option String
  | .run path _ | .check path _ => some path
  | .list => none

/-- What a command depends on. -/
structure Setting where
  file : File
  input : List UInt8
  colored : Bool
  elapsed : String

/-- What a command leaves behind. -/
structure Console where
  code : Nat
  output : List UInt8
  messages : String

namespace Command

/-- A line on the progress of a command. -/
def status (colored : Bool) (word : String) (color : Color) (text : String) : String :=
  Style.start ⟨some color, true⟩ colored (Snippet.alignRight 11 word) ++ Style.finish colored ++
    " " ++ text ++ "\n"

/-- The number of warnings behind the time that a program took. -/
def withWarnings : Nat → String
  | 0 => ""
  | 1 => " with 1 warning"
  | n => " with " ++ toString n ++ " warnings"

/-- A loop that is repeated more often than this would outlast any machine. -/
def fuel : Nat := 1000000000000000000

/-- The line that a command starts with. -/
def opening (colored : Bool) : Command → String
  | .run path quiet => if quiet then "" else status colored "Running" .cyan path
  | .check path _ => status colored "Checking" .magenta path
  | .list => ""

/-- Notices as text. -/
def renderNotices (colored : Bool) (notices : List Notice) : String :=
  String.join (notices.map fun n => n.render colored)

/-- The exit code of a run, and what is said at its end. -/
def closing (colored quiet : Bool) (elapsed : String) (run : Run Buffer) : Nat × String :=
  let line (word : String) (color : Color) (text : String) : String :=
    if quiet then "" else status colored word color text
  let failed := line "Failed" .red ("after " ++ elapsed)
  match run.outcome with
  | .finished =>
      (0, line "Finished" .green ("in " ++ elapsed ++ withWarnings run.notices.length))
  | .stopped p => (1, p.render colored ++ failed)
  | .outOfFuel => (1, failed)

/-- Runs a program. -/
def executeRun (s : Setting) (path : String) (quiet : Bool) : Console :=
  let run := runStream fuel path s.file s.input Buffer.unlimited
  let (code, last) := closing s.colored quiet s.elapsed run
  ⟨code, run.sink.bytes.toList,
    opening s.colored (.run path quiet) ++ renderNotices s.colored run.notices ++ last⟩

/-- Checks a program. -/
def executeCheck (s : Setting) (path : String) (tree : Bool) : Console :=
  let (result, notices) := checkFile path s.file
  let early := opening s.colored (.check path tree) ++ renderNotices s.colored notices
  match result with
  | .ok program =>
      let text := if tree then program.dump else program.canonical
      ⟨0, Utf8.encode (text ++ "\n"), early ++ status s.colored "Checked" .green ("in " ++ s.elapsed)⟩
  | .error p => ⟨1, [], early ++ p.render s.colored⟩

/-- Lists tokens. -/
def executeList (s : Setting) : Console :=
  match Listing.session s.input with
  | (shown, none) => ⟨0, Utf8.encode shown, ""⟩
  | (shown, some kind) => ⟨1, Utf8.encode shown, (Problem.unreadable kind).render s.colored⟩

/-- Carries out a command. -/
def execute (s : Setting) : Command → Console
  | .run path quiet => executeRun s path quiet
  | .check path tree => executeCheck s path tree
  | .list => executeList s

/-- A time of so many thousandths of a second, in seconds with two places. -/
def seconds (milliseconds : Nat) : String :=
  let hundredths := (milliseconds + 5) / 10
  let places := toString (hundredths % 100)
  toString (hundredths / 100) ++ "." ++ (if places.length < 2 then "0" ++ places else places) ++ "s"

end Command

/-- The program stopped because it asked for a line of input and there was none. -/
def Run.starved {σ : Type} (run : Run σ) : Bool :=
  match run.outcome with
  | .stopped (.failed _ _ ⟨.insufficientInput _ 0, _⟩) => true
  | _ => false

end BisayaLang
