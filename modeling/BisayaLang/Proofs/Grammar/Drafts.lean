/-
**Drafts of expressions.**

An expression tree has operators of its own, so that nothing else can stand at its nodes.  The tokens that
it is read from know no such order: a *draft* is the tree with the very tokens in the place of operators,
and by itself it could hold any of them, a comma as well as a minus.  The two stacks are here run once
more with tokens: what is pushed is the token under the cursor, and what binds how tightly is asked of the
token.

That is enough to see which tokens the reading leaves in a tree.  Reading a draft is reading an
expression and writing its operators back as tokens, so that behind every draft there is an expression:
before an operand stands a minus or a `DILI`, and between two operands a binary operator.

Main definitions:

* `BisayaLang.Draft`, `BisayaLang.Draft.expression` — trees with tokens as operators, and reading them;
* `BisayaLang.Expr.draft` — an expression as a draft;
* `BisayaLang.Draft.Sound` — a draft with operators in the place of operators.

Main results:

* `BisayaLang.Draft.expression_eq` — **reading a draft is reading an expression**;
* `BisayaLang.Expr.sound_draft` — the drafts that are read are sound.
-/

import BisayaLang.Grammar.Expression
import BisayaLang.Proofs.Canonical.Tokens

set_option relaxedAutoImplicit false
set_option autoImplicit false

namespace BisayaLang

/-- A tree of an expression with tokens in the place of operators. -/
inductive Draft where
  | var (name : Name)
  | number (value : Float) (lexeme : String) (span : Span)
  | bool (value : Bool) (span : Span)
  | text (content : String) (span : Span)
  | unary (op : Token) (operand : Draft) (span : Span)
  | binary (op : Token) (left right : Draft) (span : Span)
  | group (inner : Draft) (span : Span)

namespace Draft

/-- The part of the source that a draft was read from. -/
def span : Draft → Span
  | .var name => name.span
  | .number _ _ span | .bool _ span | .text _ span | .unary _ _ span | .binary _ _ _ span
  | .group _ span => span

/-! ### Reading with tokens -/

/-- What waits for operands: a token, or an opening bracket. -/
inductive Pending where
  | binary (op : Token) (span : Span)
  | unary (op : Token) (start : Nat)
  | opening (bracket : Bracket) (start : Nat)

/-- How tightly a waiting token binds. -/
def Pending.precedence? : Pending → Option Nat
  | .binary op _ => some op.binaryPrecedence
  | .unary op _ => some op.unaryPrecedence
  | .opening .. => none

/-- Takes the last operand. -/
def pop (span : Span) : List Draft → Except SyntaxError (Draft × List Draft)
  | d :: rest => .ok (d, rest)
  | [] => .error ⟨.expectedValue .eof, span⟩

/-- Completes a waiting token with the operands it takes. -/
def Pending.complete (operands : List Draft) : Pending → Except SyntaxError (List Draft)
  | .binary op span => do
      let (right, operands) ← pop span operands
      let (left, operands) ← pop span operands
      return .binary op left right (left.span.cover right.span) :: operands
  | .unary op start => do
      let (d, operands) ← pop (.point start) operands
      return .unary op d ⟨start, d.span.stop⟩ :: operands
  | .opening _ start => .error ⟨.mismatchedBrackets, ⟨start, start + 1⟩⟩

/-- Completes the waiting tokens that bind at least as tightly as `level`, up to the last opening
bracket. -/
def reduceWhile (level : Nat) :
    (operands : List Draft) → List Pending → Except SyntaxError (List Draft × List Pending)
  | operands, [] => .ok (operands, [])
  | operands, p :: waiting =>
      match p.precedence? with
      | none => .ok (operands, p :: waiting)
      | some q =>
          if level ≤ q then do reduceWhile level (← p.complete operands) waiting
          else .ok (operands, p :: waiting)

/-- Completes everything that waits. -/
def reduceAll : (operands : List Draft) → List Pending → Except SyntaxError (List Draft)
  | operands, [] => .ok operands
  | operands, p :: waiting => do reduceAll (← p.complete operands) waiting

/-- Completes what stands in brackets, and makes a group of it. -/
def closeGroup (closing : Bracket) (stop : Nat) (operands : List Draft) (waiting : List Pending) :
    Except SyntaxError (List Draft × List Pending) := do
  match ← reduceWhile 0 operands waiting with
  | (operands, .opening bracket start :: waiting) =>
      if bracket = closing then
        let (d, operands) ← pop ⟨start, stop⟩ operands
        return (.group d ⟨start, stop⟩ :: operands, waiting)
      else .error ⟨.mismatchedBrackets, ⟨start, stop⟩⟩
  | _ => .error ⟨.mismatchedBrackets, ⟨stop - 1, stop⟩⟩

/-- The state of reading a draft: as for an expression, but with tokens. -/
structure Stacks where
  operands : List Draft
  waiting : List Pending
  depth : Nat
  expectsOperand : Bool

namespace Stacks

/-- Adds a complete operand. -/
def push (s : Stacks) (d : Draft) : Stacks :=
  { s with operands := d :: s.operands, expectsOperand := false }

/-- Adds a token that waits for one operand. -/
def pushUnary (s : Stacks) (op : Token) (start : Nat) : Stacks :=
  { s with waiting := .unary op start :: s.waiting }

/-- Opens a bracket. -/
def openBracket (s : Stacks) (bracket : Bracket) (start : Nat) : Stacks :=
  { s with waiting := .opening bracket start :: s.waiting, depth := s.depth + 1 }

/-- Closes a bracket. -/
def closeBracket (s : Stacks) (bracket : Bracket) (stop : Nat) : Except SyntaxError Stacks := do
  let (operands, waiting) ← closeGroup bracket stop s.operands s.waiting
  return { s with operands, waiting, depth := s.depth - 1 }

/-- Adds a token that waits for two operands, behind all that binds at least as tightly. -/
def pushBinary (s : Stacks) (op : Token) (span : Span) : Except SyntaxError Stacks := do
  let (operands, waiting) ← reduceWhile op.binaryPrecedence s.operands s.waiting
  return { s with operands, waiting := .binary op span :: waiting, expectsOperand := true }

/-- What the next token does where an operand is expected. -/
def shiftOperand (s : Stacks) (c : Cursor) : Except SyntaxError Stacks :=
  match c.current with
  | .integer lexeme | .decimal lexeme =>
      match Number.readFloat? lexeme.toList with
      | some value => .ok (s.push (.number value lexeme c.span))
      | none => .error ⟨.expectedValue (.integer lexeme), c.span⟩
  | .text content => .ok (s.push (.text content c.span))
  | .oo => .ok (s.push (.bool true c.span))
  | .dili =>
      if BisayaLang.Stacks.negates c then .ok (s.pushUnary c.current c.span.start)
      else .ok (s.push (.bool false c.span))
  | .op (.arithmetic .sub) => .ok (s.pushUnary c.current c.span.start)
  | .name word => .ok (s.push (.var ⟨word, c.span⟩))
  | .mark .lparen => .ok (s.openBracket .round c.span.start)
  | .mark .lbracket => .ok (s.openBracket .square c.span.start)
  | found =>
      if s.operands.isEmpty && s.waiting.isEmpty then .error ⟨.emptyExpression, c.span⟩
      else .error ⟨.expectedValue found, c.span⟩

/-- What the next token does where an operator is expected; `none` if it does not belong to the draft. -/
def shiftOperator? (s : Stacks) (c : Cursor) : Except SyntaxError (Option Stacks) :=
  match c.current with
  | .mark .rparen =>
      if 0 < s.depth then some <$> s.closeBracket .round c.span.stop else .ok none
  | .mark .rbracket =>
      if 0 < s.depth then some <$> s.closeBracket .square c.span.stop else .ok none
  | token => if token.isBinary then some <$> s.pushBinary token c.span else .ok none

/-- What the next token does; `none` if it does not belong to the draft. -/
def shift (s : Stacks) (c : Cursor) : Except SyntaxError (Option Stacks) :=
  if s.expectsOperand then some <$> s.shiftOperand c else s.shiftOperator? c

/-- The draft that the stacks hold when it ends before the span `here`. -/
def finish (s : Stacks) (here : Span) : Except SyntaxError Draft := do
  let operands ← reduceAll s.operands s.waiting
  let (d, operands) ← pop here operands
  if operands.isEmpty then return d else .error ⟨.mismatchedBrackets, d.span⟩

/-- Reads tokens as long as they belong to the draft. -/
def read : (tokens : List Spanned) → (lastEnd : Nat) → Stacks →
    EStateM.Result SyntaxError Cursor Draft
  | tokens, lastEnd, s =>
      match tokens, s.shift ⟨tokens, lastEnd⟩ with
      | tokens, .error e => .error e ⟨tokens, lastEnd⟩
      | t :: rest, .ok (some s') => read rest t.span.stop s'
      | tokens, .ok _ =>
          match s.finish (Cursor.span ⟨tokens, lastEnd⟩) with
          | .ok d => .ok d ⟨tokens, lastEnd⟩
          | .error e => .error e ⟨tokens, lastEnd⟩
termination_by structural tokens => tokens

end Stacks

/-- Reads a draft. -/
def expression : Parse Draft := fun c => Stacks.read c.tokens c.lastEnd ⟨[], [], 0, true⟩

end Draft

/-! ### Expressions as drafts -/

/-- The expression with its operators written back as tokens. -/
def Expr.draft : Expr → Draft
  | .var name => .var name
  | .number value lexeme span => .number value lexeme span
  | .bool value span => .bool value span
  | .text content span => .text content span
  | .unary op e span => .unary op.token e.draft span
  | .binary op l r span => .binary (.op op) l.draft r.draft span
  | .group e span => .group e.draft span

@[simp] theorem Expr.span_draft (e : Expr) : e.draft.span = e.span := by
  cases e <;> rfl

/-- What waits, with its operator written back as a token. -/
def Pending.draft : Pending → Draft.Pending
  | .binary op span => .binary (.op op) span
  | .unary op start => .unary op.token start
  | .opening bracket start => .opening bracket start

/-- The two stacks, with all operators written back as tokens. -/
def draftBoth (s : List Expr × List Pending) : List Draft × List Draft.Pending :=
  (s.1.map Expr.draft, s.2.map Pending.draft)

/-- The state of reading, with all operators written back as tokens. -/
def Stacks.draft (s : Stacks) : Draft.Stacks :=
  ⟨s.operands.map Expr.draft, s.waiting.map Pending.draft, s.depth, s.expectsOperand⟩

theorem Pending.precedence?_draft (p : Pending) : p.draft.precedence? = p.precedence? := by
  cases p with
  | binary op span => rfl
  | unary op start => cases op <;> rfl
  | opening bracket start => rfl

theorem pop_draft (span : Span) (operands : List Expr) :
    Draft.pop span (operands.map Expr.draft) =
      (fun p => (p.1.draft, p.2.map Expr.draft)) <$> popOperand span operands := by
  cases operands <;> rfl

theorem Pending.complete_draft (operands : List Expr) (p : Pending) :
    p.draft.complete (operands.map Expr.draft) = List.map Expr.draft <$> p.complete operands := by
  cases p with
  | binary op span =>
      simp [Pending.draft, Draft.Pending.complete, complete, pop_draft, Expr.draft]
  | unary op start =>
      simp [Pending.draft, Draft.Pending.complete, complete, pop_draft, Expr.draft]
  | opening bracket start => rfl

theorem reduceWhile_draft (level : Nat) (operands : List Expr) (waiting : List Pending) :
    Draft.reduceWhile level (operands.map Expr.draft) (waiting.map Pending.draft) =
      draftBoth <$> reduceWhile level operands waiting := by
  induction waiting generalizing operands with
  | nil => rfl
  | cons p waiting ih =>
      rw [List.map_cons, Draft.reduceWhile, reduceWhile, p.precedence?_draft]
      cases p.precedence? with
      | none => rfl
      | some q =>
          simp only
          split
          · simp [p.complete_draft, ih]
          · rfl

theorem reduceAll_draft (operands : List Expr) (waiting : List Pending) :
    Draft.reduceAll (operands.map Expr.draft) (waiting.map Pending.draft) =
      List.map Expr.draft <$> reduceAll operands waiting := by
  induction waiting generalizing operands with
  | nil => rfl
  | cons p waiting ih => simp [Draft.reduceAll, reduceAll, p.complete_draft, ih]

theorem closeGroup_draft (closing : Bracket) (stop : Nat) (operands : List Expr)
    (waiting : List Pending) :
    Draft.closeGroup closing stop (operands.map Expr.draft) (waiting.map Pending.draft) =
      draftBoth <$> closeGroup closing stop operands waiting := by
  unfold Draft.closeGroup closeGroup
  rw [reduceWhile_draft]
  cases reduceWhile 0 operands waiting with
  | error e => rfl
  | ok both =>
      obtain ⟨operands, waiting⟩ := both
      match waiting with
      | [] => rfl
      | .binary op span :: waiting => rfl
      | .unary op start :: waiting => rfl
      | .opening bracket start :: waiting =>
          change (if bracket = closing then _ else _) = draftBoth <$> (if bracket = closing then _ else _)
          split
          · simp [pop_draft, draftBoth, Expr.draft]
          · rfl

namespace Stacks

variable (s : Stacks)

theorem closeBracket_draft (bracket : Bracket) (stop : Nat) :
    s.draft.closeBracket bracket stop = Stacks.draft <$> s.closeBracket bracket stop := by
  simp [Draft.Stacks.closeBracket, closeBracket, Stacks.draft, closeGroup_draft, draftBoth]

theorem pushBinary_draft (op : BinaryOp) (span : Span) :
    s.draft.pushBinary (.op op) span = Stacks.draft <$> s.pushBinary op span := by
  simp [Draft.Stacks.pushBinary, pushBinary, Stacks.draft, Token.binaryPrecedence, reduceWhile_draft,
    draftBoth, Pending.draft]

theorem shiftOperand_draft (c : Cursor) :
    s.draft.shiftOperand c = Stacks.draft <$> s.shiftOperand c := by
  have hempty : (s.draft.operands.isEmpty && s.draft.waiting.isEmpty) =
      (s.operands.isEmpty && s.waiting.isEmpty) := by
    simp [Stacks.draft]
  have hstray : ∀ found, (if s.draft.operands.isEmpty && s.draft.waiting.isEmpty then
        (.error ⟨.emptyExpression, c.span⟩ : Except SyntaxError Draft.Stacks)
        else .error ⟨.expectedValue found, c.span⟩) =
      Stacks.draft <$> (if s.operands.isEmpty && s.waiting.isEmpty then
        .error ⟨.emptyExpression, c.span⟩ else .error ⟨.expectedValue found, c.span⟩) := by
    intro found
    rw [hempty]
    split <;> rfl
  unfold Draft.Stacks.shiftOperand shiftOperand
  cases hc : c.current with
  | integer lexeme | decimal lexeme =>
      simp only
      cases Number.readFloat? lexeme.toList <;> rfl
  | text | oo | name => rfl
  | dili =>
      simp only
      split <;> rfl
  | word w | type t | step d | eof => exact hstray _
  | mark m => cases m <;> first | rfl | exact hstray _
  | op o =>
      cases o with
      | arithmetic op => cases op <;> first | rfl | exact hstray _
      | comparison | connective => exact hstray _

theorem shiftOperator?_draft (c : Cursor) :
    s.draft.shiftOperator? c = Option.map Stacks.draft <$> s.shiftOperator? c := by
  have hclose : ∀ bracket, (if 0 < s.draft.depth then
        some <$> s.draft.closeBracket bracket c.span.stop else .ok none) =
      Option.map Stacks.draft <$>
        (if 0 < s.depth then some <$> s.closeBracket bracket c.span.stop else .ok none) := by
    intro bracket
    change (if 0 < s.depth then _ else _) = _
    split
    · simp [closeBracket_draft]
    · rfl
  unfold Draft.Stacks.shiftOperator? shiftOperator?
  cases c.current with
  | mark m => cases m <;> first | rfl | exact hclose _
  | op o => simp [Token.isBinary, pushBinary_draft]
  | _ => rfl

theorem shift_draft (c : Cursor) : s.draft.shift c = Option.map Stacks.draft <$> s.shift c := by
  unfold Draft.Stacks.shift shift
  change (if s.expectsOperand = true then _ else _) = _
  split
  · simp [shiftOperand_draft]
  · exact shiftOperator?_draft s c

theorem finish_draft (here : Span) : s.draft.finish here = Expr.draft <$> s.finish here := by
  unfold Draft.Stacks.finish finish Stacks.draft
  rw [reduceAll_draft]
  cases reduceAll s.operands s.waiting with
  | error e => rfl
  | ok operands =>
      match operands with
      | [] => rfl
      | [e] => rfl
      | e :: e' :: rest =>
          show (Except.error _ : Except SyntaxError Draft) = _
          rw [Expr.span_draft]
          rfl

end Stacks

/-- What was read, with all operators written back as tokens. -/
def draftResult : EStateM.Result SyntaxError Cursor Expr → EStateM.Result SyntaxError Cursor Draft
  | .ok e c => .ok e.draft c
  | .error e c => .error e c

/-- Where reading ends, it comes to the same with tokens and with operators. -/
theorem ended_draft (s : Stacks) (c : Cursor) :
    (match s.draft.finish c.span with
      | .ok d => EStateM.Result.ok d c
      | .error e => .error e c) =
      draftResult (match s.finish c.span with
        | .ok e => .ok e c
        | .error e => .error e c) := by
  rw [s.finish_draft]
  cases s.finish c.span <;> rfl

/-- Reading on with tokens is reading on with operators. -/
theorem read_draft (tokens : List Spanned) (lastEnd : Nat) (s : Stacks) :
    Draft.Stacks.read tokens lastEnd s.draft = draftResult (Stacks.read tokens lastEnd s) := by
  induction tokens generalizing lastEnd s with
  | nil =>
      unfold Draft.Stacks.read Stacks.read
      rw [s.shift_draft]
      rcases s.shift ⟨[], lastEnd⟩ with e | (_ | s')
      · rfl
      · exact ended_draft s ⟨[], lastEnd⟩
      · exact ended_draft s ⟨[], lastEnd⟩
  | cons t rest ih =>
      unfold Draft.Stacks.read Stacks.read
      rw [s.shift_draft]
      rcases s.shift ⟨t :: rest, lastEnd⟩ with e | (_ | s')
      · rfl
      · exact ended_draft s ⟨t :: rest, lastEnd⟩
      · exact ih t.span.stop s'

/-- **Reading a draft is reading an expression**, and writing its operators back as tokens. -/
theorem Draft.expression_eq (c : Cursor) :
    Draft.expression c = draftResult (Parse.expression c) :=
  read_draft c.tokens c.lastEnd .start

/-! ### What a draft can hold -/

/-- Before an operand stands a minus or a `DILI`, and between two operands a binary operator. -/
def Draft.Sound : Draft → Prop
  | .unary op d _ => (op = .op (.arithmetic .sub) ∨ op = .dili) ∧ d.Sound
  | .binary op l r _ => op.isBinary = true ∧ l.Sound ∧ r.Sound
  | .group d _ => d.Sound
  | .var _ | .number .. | .bool .. | .text .. => True

theorem Expr.sound_draft (e : Expr) : e.draft.Sound := by
  induction e with
  | var | number | bool | text => trivial
  | group e span ih => exact ih
  | unary op e span ih =>
      cases op with
      | minus => exact ⟨.inl rfl, ih⟩
      | dili => exact ⟨.inr rfl, ih⟩
  | binary op l r span ihl ihr => exact ⟨rfl, ihl, ihr⟩

end BisayaLang
