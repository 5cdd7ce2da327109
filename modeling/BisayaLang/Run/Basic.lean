/-
**Running a source.**

A source is parsed and then run.  Tokens behind the end of the program give a warning before anything
is run.

Main definitions:

* `BisayaLang.Outcome` — how a run ended;
* `BisayaLang.Run` — a run: its outcome, the notices, and what is left of sink and input;
* `BisayaLang.runSource` — runs a source text;
* `BisayaLang.File` — the bytes of a file;
* `BisayaLang.runFile`, `BisayaLang.checkFile` — run the bytes of a file, or only parse them.
-/

import BisayaLang.Execution.Machine
import BisayaLang.Grammar.Program
import BisayaLang.Run.Problem

set_option relaxedAutoImplicit false
set_option autoImplicit false

namespace BisayaLang

/-- How a run ended. -/
inductive Outcome where
  | finished
  | stopped (p : Problem)
  | outOfFuel

/-- A run: how it ended, the notices in order, and what is left of the sink and of the input. -/
structure Run (σ : Type) where
  outcome : Outcome
  notices : List Notice
  sink : σ
  input : List UInt8

/-- The notices that a source gives for some warnings. -/
def noticesOf (path source : String) (warnings : List Warning) : List Notice :=
  warnings.map fun w => ⟨path, source, w⟩

/-- The warnings that parsing gives. -/
def Parsed.warnings (p : Parsed) : List Warning :=
  match p.trailing with
  | some span => [.unreachableCode span]
  | none => []

section

variable {σ : Type}

/-- A run that stopped before it touched anything. -/
def Run.unstarted (p : Problem) (input : List UInt8) (sink : σ) : Run σ :=
  ⟨.stopped p, [], sink, input⟩

variable [Sink σ]

/-- Runs a parsed program from the beginning. -/
def runParsed (fuel : Nat) (path source : String) (parsed : Parsed) (input : List UInt8) (sink : σ) :
    Run σ :=
  let early := parsed.warnings
  let finish (outcome : Outcome) (m : Machine σ) : Run σ :=
    ⟨outcome, noticesOf path source (early ++ m.warnings.toList), m.sink, m.input⟩
  match (parsed.program.exec fuel).run (.start input sink) with
  | .ok () m => finish .finished m
  | .error (.error e) m => finish (.stopped (.failed path source e)) m
  | .error .outOfFuel m => finish .outOfFuel m

/-- Runs a source text. -/
def runSource (fuel : Nat) (path source : String) (input : List UInt8) (sink : σ) : Run σ :=
  match parseProgram source with
  | .ok parsed => runParsed fuel path source parsed input sink
  | .error e => .unstarted (.rejected path source e) input sink

end

/-- The bytes of a file, or why they cannot be read. -/
abbrev File := Except IoKind (List UInt8)

/-- The text of a file.  Bytes that are no text cannot be read either. -/
def File.text (file : File) : Except IoKind String :=
  match file with
  | .error kind => .error kind
  | .ok bytes =>
      match Utf8.decode? bytes with
      | some chars => .ok (String.ofList chars)
      | none => .error .invalidData

/-- Runs a file, which is read as a whole first. -/
def runFile {σ : Type} [Sink σ] (fuel : Nat) (path : String) (file : File)
    (input : List UInt8) (sink : σ) : Run σ :=
  match file.text with
  | .ok source => runSource fuel path source input sink
  | .error kind => .unstarted (.unreadable kind) input sink

/-- Parses a file without running it. -/
def checkFile (path : String) (file : File) : Except Problem Program × List Notice :=
  match file.text with
  | .error kind => (.error (.unreadable kind), [])
  | .ok source =>
      match parseProgram source with
      | .error e => (.error (.rejected path source e), [])
      | .ok parsed => (.ok parsed.program, noticesOf path source parsed.warnings)

end BisayaLang
