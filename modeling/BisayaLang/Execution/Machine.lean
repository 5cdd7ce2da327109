/-
**Running statements.**

A machine holds the variables, the input that is left, the sink for output, and the warnings so far.
Statements change it one after the other, until the program ends or a failure stops it; a failure
leaves the machine as it is at that moment.

A loop can go on forever, so that running takes *fuel*: no loop is repeated more often than that.
Running out of fuel is no failure of the program but an answer of its own.

Main definitions:

* `BisayaLang.Machine` — the state of a running program;
* `BisayaLang.Halt` — why running stopped early;
* `BisayaLang.Exec` — steps of a machine;
* `BisayaLang.Exec.declare`, `BisayaLang.Exec.assign`, `BisayaLang.Exec.print`, `BisayaLang.Exec.read` —
  the statements without blocks;
* `BisayaLang.Exec.repeatF` — repetition;
* `BisayaLang.Stmt.exec`, `BisayaLang.Program.exec` — any statement, and a program.
-/

import BisayaLang.Execution.Evaluate
import BisayaLang.Execution.Input
import BisayaLang.Execution.Sink

set_option relaxedAutoImplicit false
set_option autoImplicit false

namespace BisayaLang

/-- The state of a running program. -/
structure Machine (σ : Type) where
  store : Store
  input : List UInt8
  sink : σ
  warnings : Array Warning

/-- A machine before its first program. -/
def Machine.start {σ : Type} (input : List UInt8) (sink : σ) : Machine σ := ⟨.empty, input, sink, #[]⟩

/-- Why running stopped early. -/
inductive Halt where
  | error (e : RuntimeError)
  | outOfFuel

/-- Steps of a machine.  Also a halt leaves the machine where it stopped. -/
abbrev Exec (σ α : Type) := EStateM Halt (Machine σ) α

namespace Exec

variable {σ α : Type}

/-- Stops with a fault at a place. -/
def fail (fault : RuntimeFault) (span : Span) : Exec σ α := throw (.error ⟨fault, span⟩)

/-- Goes on with the result of an evaluation, or stops with its error. -/
def ofEval : Eval α → Exec σ α
  | .ok a => pure a
  | .error e => throw (.error e)

/-- Evaluates in the store as it is. -/
def eval (f : Store → Eval α) : Exec σ α := do ofEval (f (← get).store)

/-- Changes the store. -/
def modifyStore (f : Store → Store) : Exec σ Unit := modify fun m => { m with store := f m.store }

/-- Adds a warning. -/
def warn (w : Warning) : Exec σ Unit := modify fun m => { m with warnings := m.warnings.push w }

/-- Uses the sink; a failure concerns the statement at `span`. -/
def useSink (span : Span) (act : σ → Except IoKind Unit × σ) : Exec σ Unit :=
  fun ⟨store, input, sink, warnings⟩ =>
    match act sink with
    | (.ok (), sink) => .ok () ⟨store, input, sink, warnings⟩
    | (.error kind, sink) => .error (.error ⟨.io kind, span⟩) ⟨store, input, sink, warnings⟩

/-! ### Declarations and assignments -/

/-- The first value of a declared variable. -/
def firstValue (type : DataType) (d : Declared) : Exec σ Value :=
  match d.value with
  | some e => eval fun s => e.valueFor s type
  | none => return type.defaultValue

/-- Declares a variable, with a warning if its name was declared before. -/
def declareOne (type : DataType) (d : Declared) : Exec σ Unit := do
  let value ← firstValue type d
  let previous := (← get).store.type? d.name.text
  modifyStore fun s => s.declare d.name.text type value
  match previous with
  | some earlier => warn (.redeclaration d.name.text earlier type d.name.span)
  | none => return ()

/-- Declares variables from left to right. -/
def declare (type : DataType) : List Declared → Exec σ Unit
  | [] => return ()
  | d :: rest => do
      declareOne type d
      declare type rest

/-- Passes a value from the target `inner` on to the targets left of it, the nearest first. -/
def passOn (value : Value) (inner : Name) (innerType : DataType) : List Name → Exec σ Unit
  | [] => return ()
  | outer :: rest => do
      let v ← eval fun s => s.find outer
      if v.type ≠ innerType then
        fail (.typeMismatch outer.text v.type inner.text innerType) (outer.span.cover inner.span)
      else
        modifyStore fun s => s.set outer.text value
        passOn value outer v.type rest

/-- Assigns a value to the rightmost target, by whose type it is evaluated, and then from right to left
to the others, which need to have the same type. -/
def assign (a : Assignment) : Exec σ Unit := do
  match a.targets.reverse with
  | [] => return ()
  | innermost :: rest =>
      let v ← eval fun s => s.find innermost
      let value ← eval fun s => a.value.valueFor s v.type
      modifyStore fun s => s.set innermost.text value
      passOn value innermost v.type rest

/-! ### Output and input -/

/-- Writes a line. -/
def writeLine [Sink σ] (line : String) (span : Span) : Exec σ Unit :=
  useSink span (Sink.writeLine line)

/-- Adds items to the text of a line, which is written when a line break comes.  At the end a line
without any text is not written. -/
def printItems [Sink σ] (span : Span) : (line : String) → List PrintItem → Exec σ Unit
  | line, [] => if line.isEmpty then return () else writeLine line span
  | line, .text content _ :: rest => printItems span (line ++ content) rest
  | line, .var name :: rest => do
      let v ← eval fun s => s.find name
      printItems span (line ++ v.value.displayAs v.type) rest
  | line, .expr e :: rest => do
      let shown ← eval fun s => e.display s
      printItems span (line ++ shown) rest
  | line, .lineBreak breakSpan :: rest => do
      writeLine line breakSpan
      printItems span "" rest

/-- Shows items. -/
def print [Sink σ] (items : List PrintItem) (span : Span) : Exec σ Unit := printItems span "" items

/-- The types of the variables that take input. -/
def typesOf : List Name → Exec σ (List (Name × DataType))
  | [] => return []
  | name :: rest => do
      let v ← eval fun s => s.find name
      let others ← typesOf rest
      return (name, v.type) :: others

/-- Reads a line and cuts it into fields.  At the end of the input there are none. -/
def readFields (span : Span) : Exec σ (List (List Char)) := do
  let m ← get
  let (line, input) := Input.takeLine m.input
  set { m with input }
  if line.isEmpty then return []
  else
    match Utf8.decode? line with
    | some text => return Input.fields text
    | none => fail (.io .invalidData) span

/-- Gives fields to variables, from left to right. -/
def takeFields : List (Name × DataType) → List (List Char) → Exec σ Unit
  | (name, type) :: names, field :: fields => do
      let value ← ofEval (Input.convert name type field)
      modifyStore fun s => s.set name.text value
      takeFields names fields
  | _, _ => return ()

/-- Reads a line of input into variables. -/
def read (names : List Name) (span : Span) : Exec σ Unit := do
  let typed ← typesOf names
  let fields ← readFields span
  if fields.length < names.length then
    fail (.insufficientInput names.length fields.length) span
  else takeFields typed fields

/-! ### Repetition -/

/-- Repeats the body as long as the test holds, at most `fuel` times. -/
def repeatF (test : Exec σ Bool) (body : Exec σ Unit) : (fuel : Nat) → Exec σ Unit
  | 0 => throw .outOfFuel
  | fuel + 1 => do
      if ← test then
        body
        repeatF test body fuel
      else return ()

/-- The number after a step. -/
def stepped (x : Float) : Step → Float
  | .increment => x + 1.0
  | .decrement => x - 1.0

/-- Steps the counter of a loop, which has to hold a number. -/
def stepCounter (counter : Name) (step : Step) : Exec σ Unit := do
  let v ← eval fun s => s.find counter
  match v.value with
  | .number x => modifyStore fun s => s.set counter.text (.number (stepped x step))
  | value => fail (.nonNumericCounter counter.text value.kind) counter.span

end Exec

/-! ### Any statement -/

section

variable {σ : Type} [Sink σ] (fuel : Nat)

mutual

/-- Runs a statement. -/
def Stmt.exec : Stmt → Exec σ Unit
  | .declaration type vars _ => Exec.declare type vars
  | .assignment a => Exec.assign a
  | .print items span => Exec.print items span
  | .input names span => Exec.read names span
  | .conditional test body rest _ => do
      if ← Exec.eval fun s => test.evalTruth s then body.exec else rest.exec
  | .loop first test counter step body _ => do
      Exec.assign first
      Exec.repeatF (Exec.eval fun s => test.evalTruth s)
        (do body.exec; Exec.stepCounter counter step) fuel

/-- Runs the statements of a block. -/
def Block.exec : Block → Exec σ Unit
  | .mk body _ => execAll body

/-- Runs what follows the first branch of a conditional. -/
def Otherwise.exec : Otherwise → Exec σ Unit
  | .nothing => return ()
  | .branch test body rest => do
      if ← Exec.eval fun s => test.evalTruth s then body.exec else rest.exec
  | .always body => body.exec

/-- Runs statements in order. -/
def execAll : List Stmt → Exec σ Unit
  | [] => return ()
  | s :: rest => do
      s.exec
      execAll rest

end

/-- Runs a program, and flushes the sink at its end. -/
def Program.exec (p : Program) : Exec σ Unit := do
  execAll fuel p.body
  Exec.useSink p.span Sink.flush

end

end BisayaLang
