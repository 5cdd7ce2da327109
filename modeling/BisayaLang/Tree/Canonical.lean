/-
**Canonical text.**

A tree is written back as program text in one canonical way: one statement a line, single spaces, the
plain assignment mark, round brackets for every group, and quotes for every printed text.

Main definitions:

* `BisayaLang.Expr.canonical`, `BisayaLang.Stmt.canonical`, `BisayaLang.Block.canonical`,
  `BisayaLang.Program.canonical` — the canonical text of each kind of tree.
-/

import BisayaLang.Tree.Basic

set_option relaxedAutoImplicit false
set_option autoImplicit false

namespace BisayaLang

/-- The canonical text of an expression. -/
def Expr.canonical : Expr → String
  | .var name => name.text
  | .number _ lexeme _ => lexeme
  | .bool true _ => "OO"
  | .bool false _ => "DILI"
  | .text content _ => "\"" ++ content ++ "\""
  | .unary .minus e _ => "-" ++ e.canonical
  | .unary .dili e _ => "DILI " ++ e.canonical
  | .binary op l r _ => l.canonical ++ " " ++ op.symbol ++ " " ++ r.canonical
  | .group e _ => "(" ++ e.canonical ++ ")"

/-- The canonical text of a print item.  A double quote is written in single quotes. -/
def PrintItem.canonical : PrintItem → String
  | .text content _ => if content = "\"" then "'\"'" else "\"" ++ content ++ "\""
  | .var name => name.text
  | .expr e => e.canonical
  | .lineBreak _ => "$"

/-- The canonical text of a declared variable. -/
def Declared.canonical (d : Declared) : String :=
  match d.value with
  | some e => d.name.text ++ " = " ++ e.canonical
  | none => d.name.text

/-- The canonical text of an assignment. -/
def Assignment.canonical (a : Assignment) : String :=
  String.join (a.targets.map fun t => t.text ++ " = ") ++ a.value.canonical

mutual

/-- The canonical text of a statement. -/
def Stmt.canonical : Stmt → String
  | .declaration type vars _ =>
      "MUGNA " ++ type.word ++ " " ++ String.intercalate ", " (vars.map Declared.canonical)
  | .assignment a => a.canonical
  | .print items _ => "IPAKITA: " ++ String.intercalate " & " (items.map PrintItem.canonical)
  | .input names _ => "DAWAT: " ++ String.intercalate ", " (names.map Name.text)
  | .conditional test body rest _ =>
      "KUNG (" ++ test.canonical ++ ") " ++ body.canonical ++ rest.canonical
  | .loop first test counter step body _ =>
      "ALANG SA (" ++ first.canonical ++ ", " ++ test.canonical ++ ", " ++ counter.text ++
        step.spelling ++ ") " ++ body.canonical

/-- The canonical text of a block. -/
def Block.canonical : Block → String
  | .mk body _ => "PUNDOK \x7b\n" ++ canonicalLines body ++ "\x7d"

/-- The canonical text of the later branches of a conditional, with the line ends before them. -/
def Otherwise.canonical : Otherwise → String
  | .nothing => ""
  | .branch test body rest =>
      "\nKUNG DILI (" ++ test.canonical ++ ") " ++ body.canonical ++ rest.canonical
  | .always body => "\nKUNG WALA " ++ body.canonical

/-- The canonical texts of statements, a line end after each. -/
def canonicalLines : List Stmt → String
  | [] => ""
  | s :: rest => s.canonical ++ "\n" ++ canonicalLines rest

end

/-- The canonical text of a program. -/
def Program.canonical (p : Program) : String :=
  "SUGOD\n" ++ canonicalLines p.body ++ "KATAPUSAN"

end BisayaLang
