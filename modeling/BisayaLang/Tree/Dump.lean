/-
**Trees in full.**

The tree of a program can be listed in full, with all labels and places: every part on a line of its
own, indented by its depth.

Main definitions:

* `BisayaLang.Dump` — a listing before it is laid out;
* `BisayaLang.Dump.lines` — its lines;
* `BisayaLang.Program.dump` — the tree of a program in full.
-/

import BisayaLang.Number.Layout
import BisayaLang.Token.Listing
import BisayaLang.Tree.Basic

set_option relaxedAutoImplicit false
set_option autoImplicit false

namespace BisayaLang

/-- A listing before it is laid out. -/
inductive Dump where
  /-- a text on one line -/
  | atom (text : String)
  /-- a listing with a name in front -/
  | field (name : String) (d : Dump)
  /-- listings between two brackets -/
  | group (opening closing : String) (items : List Dump)

namespace Dump

/-- Adds a text in front of the first line. -/
def labelFirst (label : String) : List String → List String
  | [] => []
  | line :: lines => (label ++ line) :: lines

/-- Indents lines by one level, and ends the last one with a comma. -/
def asItem : List String → List String
  | [] => []
  | [line] => ["    " ++ line ++ ","]
  | line :: lines => ("    " ++ line) :: asItem lines

mutual

/-- The lines of a listing. -/
def lines : Dump → List String
  | .atom text => [text]
  | .field name d => labelFirst (name ++ ": ") d.lines
  | .group opening closing [] => [opening ++ closing]
  | .group opening closing (d :: ds) => opening :: linesAll (d :: ds) ++ [closing]

/-- The lines of several listings, each as an item. -/
def linesAll : List Dump → List String
  | [] => []
  | d :: ds => asItem d.lines ++ linesAll ds

end

/-- A record: a label, and its fields in braces. -/
def record (label : String) (fields : List (String × Dump)) : Dump :=
  .group (label ++ " \x7b") "\x7d" (fields.map fun (name, d) => .field name d)

/-- A label with one listing in brackets. -/
def wrap (label : String) (d : Dump) : Dump := .group (label ++ "(") ")" [d]

/-- A list. -/
def list (ds : List Dump) : Dump := .group "[" "]" ds

/-- A text in quotes. -/
def quoted (s : String) : Dump := .atom (Text.quoted s)

/-- A natural number. -/
def nat (n : Nat) : Dump := .atom (toString n)

/-- A listing that may be missing. -/
def optional : Option Dump → Dump
  | none => .atom "None"
  | some d => wrap "Some" d

/-- A place in the source. -/
def span (s : Span) : Dump := record "SrcSpan" [("start", nat s.start), ("end", nat s.stop)]

/-- A field for the place in the source. -/
def located (s : Span) : String × Dump := ("location", span s)

end Dump

open Dump

/-- An identifier in full. -/
def Name.dump (n : Name) : Dump := record "Identifier" [("value", quoted n.text), located n.span]

/-- An expression in full. -/
def Expr.dump : Expr → Dump
  | .var name => wrap "Identifier" name.dump
  | .number value lexeme s =>
      wrap "Primitive" (record "Number"
        [("value", .atom (Number.Layout.tipik.write value)), ("lexeme", quoted lexeme), located s])
  | .bool value s =>
      wrap "Primitive" (record "Bool" [("value", .atom (if value then "true" else "false")), located s])
  | .text content s => wrap "Primitive" (record "Char" [("value", quoted content), located s])
  | .unary op e s =>
      wrap "Prefix" (record "Prefix"
        [("operator", .atom op.label), ("expression", e.dump), located s])
  | .binary op l r s =>
      wrap "Infix" (record "Infix"
        [("left", l.dump), ("operator", .atom op.label), ("right", r.dump), located s])
  | .group e s => record "Nested" [("expression", e.dump), located s]

/-- A print item in full. -/
def PrintItem.dump : PrintItem → Dump
  | .text content s => record "Text" [("value", quoted content), located s]
  | .var name => wrap "Variable" name.dump
  | .expr e => wrap "Expression" e.dump
  | .lineBreak s => record "LineBreak" [located s]

/-- A declared variable in full. -/
def Declared.dump (d : Declared) : Dump :=
  record "DeclaredVariable"
    [("name", d.name.dump), ("initializer", optional (d.value.map Expr.dump))]

/-- An assignment in full. -/
def Assignment.dump (a : Assignment) : Dump :=
  record "Assignment"
    [("targets", list (a.targets.map Name.dump)), ("value", a.value.dump), located a.span]

/-- A branch of a conditional in full. -/
def dumpBranch (test : Expr) (body : Dump) : Dump :=
  record "Branch" [("condition", test.dump), ("body", body)]

mutual

/-- A statement in full. -/
def Stmt.dump : Stmt → Dump
  | .declaration type vars s =>
      wrap "Declaration" (record "Declaration"
        [("value_type", .atom type.label), ("variables", list (vars.map Declared.dump)),
          located s])
  | .assignment a => wrap "Assignment" a.dump
  | .print items s =>
      wrap "Print" (record "Print" [("items", list (items.map PrintItem.dump)), located s])
  | .input names s =>
      wrap "Input" (record "Input" [("identifiers", list (names.map Name.dump)), located s])
  | .conditional test body rest s =>
      wrap "Conditional" (record "Conditional"
        [("branches", list (dumpBranch test body.dump :: rest.dumpBranches)),
          ("alternative", optional rest.dumpLast), located s])
  | .loop first test counter step body s =>
      wrap "Loop" (record "Loop"
        [("initializer", first.dump), ("condition", test.dump),
          ("step", record "Step" [("variable", counter.dump), ("operator", .atom step.label)]),
          ("body", body.dump), located s])

/-- A block in full. -/
def Block.dump : Block → Dump
  | .mk body s => record "Block" [("statements", list (dumpAll body)), located s]

/-- The later branches with a test in full. -/
def Otherwise.dumpBranches : Otherwise → List Dump
  | .nothing => []
  | .branch test body rest => dumpBranch test body.dump :: rest.dumpBranches
  | .always _ => []

/-- The last branch without a test in full. -/
def Otherwise.dumpLast : Otherwise → Option Dump
  | .nothing => none
  | .branch _ _ rest => rest.dumpLast
  | .always body => some body.dump

/-- Statements in full. -/
def dumpAll : List Stmt → List Dump
  | [] => []
  | s :: rest => s.dump :: dumpAll rest

end

/-- The tree of a program in full. -/
def Program.dump (p : Program) : String :=
  String.intercalate "\n"
    (record "Program" [("statements", list (dumpAll p.body)), located p.span]).lines

end BisayaLang
