/-
**The names of a program.**

An identifier can stand in an expression, before a value, in a list of variables, as an item to be shown
and as the counter of a loop.  Here all of them are collected, and exchanged for others.  Exchanging names
touches nothing but identifiers: a literal that looks like a name stays as it is, and so does every
place.

Main definitions:

* `BisayaLang.Program.names` — the names of the identifiers of a program;
* `BisayaLang.Program.rename` — the program with other names.

Main results:

* `BisayaLang.Program.rename_id` — exchanging each name for itself changes nothing.
-/

import BisayaLang.Tree.Basic

set_option relaxedAutoImplicit false
set_option autoImplicit false

namespace BisayaLang

/-! ### All names -/

/-- The names in an expression. -/
def Expr.names : Expr → List String
  | .var name => [name.text]
  | .number _ _ _ | .bool _ _ | .text _ _ => []
  | .unary _ e _ => e.names
  | .binary _ l r _ => l.names ++ r.names
  | .group e _ => e.names

/-- The names in an item to be shown. -/
def PrintItem.names : PrintItem → List String
  | .var name => [name.text]
  | .expr e => e.names
  | .text _ _ | .lineBreak _ => []

/-- The name of a declared variable, and those in its first value. -/
def Declared.names (d : Declared) : List String := d.name.text :: d.value.toList.flatMap Expr.names

/-- The names of the targets, and those in the value. -/
def Assignment.names (a : Assignment) : List String := a.targets.map Name.text ++ a.value.names

mutual

/-- The names in a statement. -/
def Stmt.names : Stmt → List String
  | .declaration _ vars _ => vars.flatMap Declared.names
  | .assignment a => a.names
  | .print items _ => items.flatMap PrintItem.names
  | .input names _ => names.map Name.text
  | .conditional test body rest _ => test.names ++ body.names ++ rest.names
  | .loop first test counter _ body _ => first.names ++ test.names ++ counter.text :: body.names

/-- The names in a block. -/
def Block.names : Block → List String
  | .mk body _ => bodyNames body

/-- The names in the later branches of a conditional. -/
def Otherwise.names : Otherwise → List String
  | .nothing => []
  | .branch test body rest => test.names ++ body.names ++ rest.names
  | .always body => body.names

/-- The names in some statements. -/
def bodyNames : List Stmt → List String
  | [] => []
  | s :: rest => s.names ++ bodyNames rest

end

/-- The names in a program. -/
def Program.names (p : Program) : List String := bodyNames p.body

/-! ### Other names -/

section

variable (r : String → String)

/-- The identifier with another name. -/
def Name.rename (n : Name) : Name := ⟨r n.text, n.span⟩

@[simp] theorem Name.text_rename (n : Name) : (n.rename r).text = r n.text := rfl

@[simp] theorem Name.span_rename (n : Name) : (n.rename r).span = n.span := rfl

/-- The expression with other names. -/
def Expr.rename : Expr → Expr
  | .var name => .var (name.rename r)
  | .number value lexeme span => .number value lexeme span
  | .bool value span => .bool value span
  | .text content span => .text content span
  | .unary op e span => .unary op e.rename span
  | .binary op left right span => .binary op left.rename right.rename span
  | .group e span => .group e.rename span

/-- The item with other names. -/
def PrintItem.rename : PrintItem → PrintItem
  | .text content span => .text content span
  | .var name => .var (name.rename r)
  | .expr e => .expr (e.rename r)
  | .lineBreak span => .lineBreak span

/-- The declared variable with other names. -/
def Declared.rename (d : Declared) : Declared := ⟨d.name.rename r, d.value.map (Expr.rename r)⟩

/-- The assignment with other names. -/
def Assignment.rename (a : Assignment) : Assignment :=
  ⟨a.targets.map (Name.rename r), a.value.rename r, a.span⟩

mutual

/-- The statement with other names. -/
def Stmt.rename : Stmt → Stmt
  | .declaration type vars span => .declaration type (vars.map (Declared.rename r)) span
  | .assignment a => .assignment (a.rename r)
  | .print items span => .print (items.map (PrintItem.rename r)) span
  | .input names span => .input (names.map (Name.rename r)) span
  | .conditional test body rest span =>
      .conditional (test.rename r) body.rename rest.rename span
  | .loop first test counter step body span =>
      .loop (first.rename r) (test.rename r) (counter.rename r) step body.rename span

/-- The block with other names. -/
def Block.rename : Block → Block
  | .mk body span => .mk (renameBody body) span

/-- The later branches of a conditional with other names. -/
def Otherwise.rename : Otherwise → Otherwise
  | .nothing => .nothing
  | .branch test body rest => .branch (test.rename r) body.rename rest.rename
  | .always body => .always body.rename

/-- The statements with other names. -/
def renameBody : List Stmt → List Stmt
  | [] => []
  | s :: rest => s.rename :: renameBody rest

end

/-- The program with other names. -/
def Program.rename (p : Program) : Program := ⟨renameBody r p.body, p.span⟩

end

/-! ### The same names -/

theorem Expr.rename_id (e : Expr) : e.rename id = e := by
  induction e with
  | unary op e _ ih => rw [Expr.rename, ih]
  | binary op l r _ ihl ihr => rw [Expr.rename, ihl, ihr]
  | group e _ ih => rw [Expr.rename, ih]
  | _ => rfl

theorem PrintItem.rename_id (i : PrintItem) : i.rename id = i := by
  cases i with
  | expr e => rw [PrintItem.rename, e.rename_id]
  | _ => rfl

theorem Declared.rename_id (d : Declared) : d.rename id = d := by
  rcases d with ⟨name, _ | e⟩
  · rfl
  · show Declared.mk name (some (e.rename id)) = _
    rw [e.rename_id]

theorem names_map_rename_id (names : List Name) : names.map (Name.rename id) = names := List.map_id names

theorem Assignment.rename_id (a : Assignment) : a.rename id = a := by
  rw [Assignment.rename, names_map_rename_id, a.value.rename_id]

mutual

theorem Stmt.rename_id (s : Stmt) : s.rename id = s := by
  cases s with
  | declaration type vars _ => rw [Stmt.rename, List.map_id'' Declared.rename_id]
  | assignment a => rw [Stmt.rename, a.rename_id]
  | print items _ => rw [Stmt.rename, List.map_id'' PrintItem.rename_id]
  | input names _ => rw [Stmt.rename, names_map_rename_id]
  | conditional test body rest _ =>
      rw [Stmt.rename, test.rename_id, body.rename_id, rest.rename_id]
  | loop first test counter _ body _ =>
      rw [Stmt.rename, first.rename_id, test.rename_id, body.rename_id]
      rfl

theorem Block.rename_id (b : Block) : b.rename id = b := by
  cases b with
  | mk body _ => rw [Block.rename, renameBody_id body]

theorem Otherwise.rename_id (o : Otherwise) : o.rename id = o := by
  cases o with
  | nothing => rfl
  | branch test body rest =>
      rw [Otherwise.rename, test.rename_id, body.rename_id, rest.rename_id]
  | always body => rw [Otherwise.rename, body.rename_id]

theorem renameBody_id (body : List Stmt) : renameBody id body = body := by
  cases body with
  | nil => rfl
  | cons s rest => rw [renameBody, s.rename_id, renameBody_id rest]

end

/-- **Exchanging each name for itself changes nothing.** -/
theorem Program.rename_id (p : Program) : p.rename id = p := by
  rw [Program.rename, renameBody_id]

end BisayaLang
