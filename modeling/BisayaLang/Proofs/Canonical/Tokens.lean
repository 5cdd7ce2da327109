/-
**The tokens of a tree.**

The canonical text of a tree is a sequence of tokens with blanks between.  Here are the tokens alone:
every group stands in round brackets, every assignment is made with the plain mark, the items of a print
statement are separated by `&`, and every text that is printed is one quoted text.

The same tree may have been read from other tokens.  What brackets were used and where the items were
separated does not show in it, and `Token.tidy` gives the token that a token is written back as.

Main definitions:

* `BisayaLang.Expr.tokens`, `BisayaLang.Stmt.tokens`, `BisayaLang.Program.tokens` — the tokens of each
  kind of tree;
* `BisayaLang.Token.tidy` — a token as it is written back;
* `BisayaLang.Expr.bare`, `BisayaLang.Stmt.bare`, `BisayaLang.Program.bare` — a tree without its places,
  so that trees which are equal but for the places have the same bare tree.
-/

import BisayaLang.Tree.Basic

set_option relaxedAutoImplicit false
set_option autoImplicit false

namespace BisayaLang

/-! ### Tokens -/

/-- The token that a number is written as. -/
def Token.ofNumber (lexeme : String) : Token :=
  if '.' ∈ lexeme.toList then .decimal lexeme else .integer lexeme

/-- The token of a unary operator. -/
def UnaryOp.token : UnaryOp → Token
  | .minus => .op (.arithmetic .sub)
  | .dili => .dili

/-- The tokens of an expression. -/
def Expr.tokens : Expr → List Token
  | .var name => [.name name.text]
  | .number _ lexeme _ => [.ofNumber lexeme]
  | .bool true _ => [.oo]
  | .bool false _ => [.dili]
  | .text content _ => [.text content]
  | .unary op e _ => op.token :: e.tokens
  | .binary op l r _ => l.tokens ++ .op op :: r.tokens
  | .group e _ => .mark .lparen :: (e.tokens ++ [.mark .rparen])

/-- The tokens of a print item. -/
def PrintItem.tokens : PrintItem → List Token
  | .text content _ => [.text content]
  | .var name => [.name name.text]
  | .expr e => e.tokens
  | .lineBreak _ => [.mark .dollar]

/-- The tokens of a declared variable. -/
def Declared.tokens (v : Declared) : List Token :=
  match v.value with
  | some e => .name v.name.text :: .mark .assign :: e.tokens
  | none => [.name v.name.text]

/-- The tokens of an assignment. -/
def Assignment.tokens (a : Assignment) : List Token :=
  a.targets.flatMap (fun t => [.name t.text, .mark .assign]) ++ a.value.tokens

/-- Parts with a separator between them. -/
def separated (sep : Token) : List (List Token) → List Token
  | [] => []
  | part :: parts => part ++ parts.flatMap (sep :: ·)

mutual

/-- The tokens of a statement. -/
def Stmt.tokens : Stmt → List Token
  | .declaration type vars _ =>
      .word .mugna :: .type type :: separated (.mark .comma) (vars.map Declared.tokens)
  | .assignment a => a.tokens
  | .print items _ =>
      .word .ipakita :: .mark .colon :: separated (.mark .ampersand) (items.map PrintItem.tokens)
  | .input names _ =>
      .word .dawat :: .mark .colon ::
        separated (.mark .comma) (names.map fun n => [.name n.text])
  | .conditional test body rest _ =>
      .word .kung :: .mark .lparen :: (test.tokens ++ .mark .rparen :: (body.tokens ++ rest.tokens))
  | .loop first test counter step body _ =>
      .word .alang :: .word .sa :: .mark .lparen :: (first.tokens ++ .mark .comma ::
        (test.tokens ++ .mark .comma :: .name counter.text :: .step step :: .mark .rparen ::
          body.tokens))

/-- The tokens of a block. -/
def Block.tokens : Block → List Token
  | .mk body _ => .word .pundok :: .mark .lbrace :: (bodyTokens body ++ [.mark .rbrace])

/-- The tokens of the later branches of a conditional. -/
def Otherwise.tokens : Otherwise → List Token
  | .nothing => []
  | .branch test body rest =>
      .word .kung :: .dili :: .mark .lparen ::
        (test.tokens ++ .mark .rparen :: (body.tokens ++ rest.tokens))
  | .always body => .word .kung :: .word .wala :: body.tokens

/-- The tokens of statements, one behind the other. -/
def bodyTokens : List Stmt → List Token
  | [] => []
  | s :: rest => s.tokens ++ bodyTokens rest

end

/-- The tokens of a program. -/
def Program.tokens (p : Program) : List Token :=
  .word .sugod :: (bodyTokens p.body ++ [.word .katapusan])

/-! ### Tokens as they are written back -/

/-- A token as it is written back: brackets are round, assignment has its plain mark, and a number is
the token that its digits are read as. -/
def Token.tidy : Token → Token
  | .mark .lbracket => .mark .lparen
  | .mark .rbracket => .mark .rparen
  | .mark .colonAssign => .mark .assign
  | .integer lexeme | .decimal lexeme => .ofNumber lexeme
  | t => t

theorem Token.ofNumber_cases (lexeme : String) :
    Token.ofNumber lexeme = .decimal lexeme ∨ Token.ofNumber lexeme = .integer lexeme := by
  unfold ofNumber
  split
  · exact .inl rfl
  · exact .inr rfl

/-- A function of tokens that does not tell the two shapes of brackets apart, nor the two marks of
assignment, nor the two kinds of numbers, is not changed by writing the token back. -/
theorem Token.apply_tidy {α : Type} {f : Token → α}
    (hl : f (.mark .lbracket) = f (.mark .lparen)) (hr : f (.mark .rbracket) = f (.mark .rparen))
    (ha : f (.mark .colonAssign) = f (.mark .assign))
    (hn : ∀ lexeme, f (.decimal lexeme) = f (.integer lexeme)) (t : Token) : f t.tidy = f t := by
  unfold tidy
  split
  · exact hl.symm
  · exact hr.symm
  · exact ha.symm
  · rcases ofNumber_cases _ with h | h <;> rw [h]
    exact hn _
  · rcases ofNumber_cases _ with h | h <;> rw [h]
    exact (hn _).symm
  · rfl

@[simp] theorem Token.startsOperand_tidy (t : Token) : t.tidy.startsOperand = t.startsOperand :=
  apply_tidy rfl rfl rfl (fun _ => rfl) t

@[simp] theorem Token.isName_tidy (t : Token) : t.tidy.isName = t.isName :=
  apply_tidy rfl rfl rfl (fun _ => rfl) t

@[simp] theorem Token.isAssign_tidy (t : Token) : t.tidy.isAssign = t.isAssign :=
  apply_tidy rfl rfl rfl (fun _ => rfl) t

/-! ### Trees without places -/

/-- The name without its place. -/
def Name.bare (n : Name) : Name := ⟨n.text, .point 0⟩

/-- The expression without its places. -/
def Expr.bare : Expr → Expr
  | .var name => .var name.bare
  | .number value lexeme _ => .number value lexeme (.point 0)
  | .bool value _ => .bool value (.point 0)
  | .text content _ => .text content (.point 0)
  | .unary op e _ => .unary op e.bare (.point 0)
  | .binary op l r _ => .binary op l.bare r.bare (.point 0)
  | .group e _ => .group e.bare (.point 0)

/-- The print item without its places. -/
def PrintItem.bare : PrintItem → PrintItem
  | .text content _ => .text content (.point 0)
  | .var name => .var name.bare
  | .expr e => .expr e.bare
  | .lineBreak _ => .lineBreak (.point 0)

/-- The declared variable without its places. -/
def Declared.bare (v : Declared) : Declared := ⟨v.name.bare, v.value.map Expr.bare⟩

/-- The assignment without its places. -/
def Assignment.bare (a : Assignment) : Assignment :=
  ⟨a.targets.map Name.bare, a.value.bare, .point 0⟩

mutual

/-- The statement without its places. -/
def Stmt.bare : Stmt → Stmt
  | .declaration type vars _ => .declaration type (vars.map Declared.bare) (.point 0)
  | .assignment a => .assignment a.bare
  | .print items _ => .print (items.map PrintItem.bare) (.point 0)
  | .input names _ => .input (names.map Name.bare) (.point 0)
  | .conditional test body rest _ => .conditional test.bare body.bare rest.bare (.point 0)
  | .loop first test counter step body _ =>
      .loop first.bare test.bare counter.bare step body.bare (.point 0)

/-- The block without its places. -/
def Block.bare : Block → Block
  | .mk body _ => .mk (bareBody body) (.point 0)

/-- The later branches of a conditional without their places. -/
def Otherwise.bare : Otherwise → Otherwise
  | .nothing => .nothing
  | .branch test body rest => .branch test.bare body.bare rest.bare
  | .always body => .always body.bare

/-- The statements without their places. -/
def bareBody : List Stmt → List Stmt
  | [] => []
  | s :: rest => s.bare :: bareBody rest

end

/-- The program without its places. -/
def Program.bare (p : Program) : Program := ⟨bareBody p.body, .point 0⟩

/-! ### The places do not show in the tokens -/

theorem Expr.tokens_bare (e : Expr) : e.bare.tokens = e.tokens := by
  induction e with
  | unary op e _ ih => rw [Expr.bare, Expr.tokens, Expr.tokens, ih]
  | binary op l r _ ihl ihr => rw [Expr.bare, Expr.tokens, Expr.tokens, ihl, ihr]
  | group e _ ih => rw [Expr.bare, Expr.tokens, Expr.tokens, ih]
  | bool value _ => cases value <;> rfl
  | _ => rfl

theorem PrintItem.tokens_bare (i : PrintItem) : i.bare.tokens = i.tokens := by
  cases i with
  | expr e => exact e.tokens_bare
  | _ => rfl

theorem Declared.tokens_bare (v : Declared) : v.bare.tokens = v.tokens := by
  rcases v with ⟨name, _ | e⟩
  · rfl
  · show [_, _] ++ e.bare.tokens = [_, _] ++ e.tokens
    rw [e.tokens_bare]
    rfl

theorem Assignment.tokens_bare (a : Assignment) : a.bare.tokens = a.tokens := by
  rw [Assignment.tokens, Assignment.tokens, Assignment.bare, Expr.tokens_bare, List.flatMap_map]
  rfl

mutual

theorem Stmt.tokens_bare (s : Stmt) : s.bare.tokens = s.tokens := by
  cases s with
  | declaration type vars _ =>
      simp only [Stmt.bare, Stmt.tokens, List.map_map, Function.comp_def, Declared.tokens_bare]
  | assignment a => exact a.tokens_bare
  | print items _ =>
      simp only [Stmt.bare, Stmt.tokens, List.map_map, Function.comp_def, PrintItem.tokens_bare]
  | input names _ => simp only [Stmt.bare, Stmt.tokens, List.map_map, Function.comp_def, Name.bare]
  | conditional test body rest _ =>
      rw [Stmt.bare, Stmt.tokens, Stmt.tokens, test.tokens_bare, body.tokens_bare, rest.tokens_bare]
  | loop first test counter step body _ =>
      rw [Stmt.bare, Stmt.tokens, Stmt.tokens, first.tokens_bare, test.tokens_bare,
        body.tokens_bare, Name.bare]

theorem Block.tokens_bare (b : Block) : b.bare.tokens = b.tokens := by
  cases b with
  | mk body _ => rw [Block.bare, Block.tokens, Block.tokens, bodyTokens_bareBody body]

theorem Otherwise.tokens_bare (rest : Otherwise) : rest.bare.tokens = rest.tokens := by
  cases rest with
  | nothing => rfl
  | branch test body rest =>
      rw [Otherwise.bare, Otherwise.tokens, Otherwise.tokens, test.tokens_bare, body.tokens_bare,
        rest.tokens_bare]
  | always body => rw [Otherwise.bare, Otherwise.tokens, Otherwise.tokens, body.tokens_bare]

theorem bodyTokens_bareBody (body : List Stmt) : bodyTokens (bareBody body) = bodyTokens body := by
  cases body with
  | nil => rfl
  | cons s rest =>
      rw [bareBody, bodyTokens, bodyTokens, s.tokens_bare, bodyTokens_bareBody rest]

end

theorem Program.tokens_bare (p : Program) : p.bare.tokens = p.tokens := by
  rw [Program.tokens, Program.tokens, Program.bare, bodyTokens_bareBody]

end BisayaLang
