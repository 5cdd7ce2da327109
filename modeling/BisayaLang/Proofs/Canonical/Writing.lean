/-
**How a tree is written.**

The canonical text of a tree is put together from pieces that have the tokens of the tree.  If every
token of the tree can be spelled, no piece runs into the next one, but for minus signs.

The tree alone shows whether the text can be read back.  It cannot be where a sign stands before an
expression that starts with a sign, for two minus signs start a comment.  And it cannot be where an
expression is the text of one double quote.

Main definitions:

* `BisayaLang.Expr.legible`, `BisayaLang.Stmt.legible`, `BisayaLang.Program.legible` — no sign stands
  before another one, and no expression is a double quote;
* `BisayaLang.Written` — a text is put together from loose pieces of the given tokens.

Main results:

* `BisayaLang.Expr.written` — the canonical text of an expression is put together from its tokens;
* `BisayaLang.Program.written` — **the canonical text of a program is put together from its tokens**, and
  can be read back piece by piece if the program is legible.
-/

import BisayaLang.Proofs.Canonical.Pieces
import BisayaLang.Proofs.Canonical.Tokens
import BisayaLang.Tree.Canonical

set_option relaxedAutoImplicit false
set_option autoImplicit false

namespace BisayaLang

/-! ### Trees that can be read back -/

/-- The first character that is written is a minus. -/
def Expr.leadsWithMinus : Expr → Bool
  | .unary .minus _ _ => true
  | .binary _ l _ _ => l.leadsWithMinus
  | _ => false

/-- No sign stands right before another one, and no text is a double quote. -/
def Expr.legible : Expr → Bool
  | .text content _ => content ≠ "\""
  | .unary .minus e _ => !e.leadsWithMinus && e.legible
  | .unary .dili e _ => e.legible
  | .binary _ l r _ => l.legible && r.legible
  | .group e _ => e.legible
  | .var _ | .number _ _ _ | .bool _ _ => true

/-- The expression of the item is legible.  A text is, whatever it is. -/
def PrintItem.legible : PrintItem → Bool
  | .expr e => e.legible
  | _ => true

/-- The first value is legible, if there is one. -/
def Declared.legible (v : Declared) : Bool :=
  match v.value with
  | some e => e.legible
  | none => true

mutual

/-- All expressions of the statement are legible. -/
def Stmt.legible : Stmt → Bool
  | .declaration _ vars _ => vars.all Declared.legible
  | .assignment a => a.value.legible
  | .print items _ => items.all PrintItem.legible
  | .input _ _ => true
  | .conditional test body rest _ => test.legible && body.legible && rest.legible
  | .loop first test _ _ body _ => first.value.legible && test.legible && body.legible

/-- All expressions of the block are legible. -/
def Block.legible : Block → Bool
  | .mk body _ => legibleBody body

/-- All expressions of the later branches are legible. -/
def Otherwise.legible : Otherwise → Bool
  | .nothing => true
  | .branch test body rest => test.legible && body.legible && rest.legible
  | .always body => body.legible

/-- All expressions of the statements are legible. -/
def legibleBody : List Stmt → Bool
  | [] => true
  | s :: rest => s.legible && legibleBody rest

end

/-- All expressions of the program are legible. -/
def Program.legible (p : Program) : Bool := legibleBody p.body

/-! ### Loose pieces behind loose pieces -/

theorem Separated.append {cs ds : List Char} (h : Separated cs) (h' : Separated ds) :
    Separated (cs ++ ds) := by
  cases cs with
  | nil => exact h'
  | cons c cs => exact separated_cons (h c rfl) (cs ++ ds)

theorem Loose.append {ps qs : List Piece} (h : Loose ps) (h' : Loose qs)
    (hs : Separated (textOf qs)) : Loose (ps ++ qs) := by
  induction ps with
  | nil => exact h'
  | cons p ps ih =>
      obtain ⟨hp, hb, hps⟩ := h
      rw [List.cons_append, Loose, textOf_append]
      refine ⟨hp, ?_, ih hps⟩
      cases p with
      | plain t =>
          rcases hb with rfl | rfl | hb
          · exact .inl rfl
          · exact .inr (.inl rfl)
          · exact .inr (.inr (hb.append hs))
      | _ => trivial

/-- A separator is no minus sign. -/
theorem Separated.head?_ne_minus {cs : List Char} (h : Separated cs) : cs.head? ≠ some '-' :=
  fun hc => absurd (h '-' hc) (by decide)

theorem head?_append_eq_minus {cs ds : List Char} (h : Separated ds) :
    (cs ++ ds).head? = some '-' ↔ cs.head? = some '-' := by
  cases cs with
  | nil => exact ⟨fun hc => absurd hc h.head?_ne_minus, fun hc => absurd hc (by simp)⟩
  | cons c cs => exact Iff.rfl

theorem doubled_append {ps qs : List Piece} (hs : Separated (textOf qs)) :
    doubled (ps ++ qs) = (doubled ps || doubled qs) := by
  induction ps with
  | nil => rfl
  | cons p ps ih =>
      have hhead : ((textOf ps ++ textOf qs).head? == some '-') =
          ((textOf ps).head? == some '-') :=
        Bool.eq_iff_iff.2 (by simpa only [beq_iff_eq] using head?_append_eq_minus hs)
      rw [List.cons_append, doubled, doubled, ih, textOf_append, hhead, Bool.or_assoc]

/-! ### Texts put together from tokens -/

/-- If the tokens can be spelled, the text is put together from loose pieces that have these tokens.
It is legible if no minus is doubled and no piece is a double quote in double quotes. -/
def Written (cs : List Char) (ts : List Token) (legible : Bool) : Prop :=
  (∀ t ∈ ts, t.Spellable) → ∃ ps, textOf ps = cs ∧ tokensOf ps = ts ∧ Loose ps ∧
    (legible = true ↔ Piece.quoted "\"" ∉ ps ∧ doubled ps = false)

theorem written_nil : Written [] [] true :=
  fun _ => ⟨[], rfl, rfl, trivial, by simp [doubled]⟩

/-- A single piece. -/
theorem written_piece {p : Piece} {b : Bool} (hp : (∀ t ∈ p.tokens, t.Spellable) → p.Good)
    (hb : b = true ↔ p ≠ .quoted "\"") : Written p.chars p.tokens b := by
  intro hts
  refine ⟨[p], by simp, by simp, ⟨hp hts, ?_, trivial⟩, ?_⟩
  · cases p with
    | plain t => exact .inr (.inr fun c hc => absurd hc (by simp))
    | _ => trivial
  · have hd : doubled [p] = false := by simp [doubled]
    rw [hb, List.mem_singleton]
    exact ⟨fun hne => ⟨fun heq => hne heq.symm, hd⟩, fun hne heq => hne.1 heq.symm⟩

theorem written_plain {t : Token} (h : t.isPlain = true) : Written t.literal.toList [t] true :=
  written_piece (p := .plain t) (fun hts => ⟨h, hts t (by simp [Piece.tokens])⟩) (by simp)

/-- A piece that may stand right before any text.  If it is a minus, the text must not start with
another one. -/
theorem Written.cons {p : Piece} {cs : List Char} {ts : List Token} {m b : Bool}
    (hp : p.Good) (hbefore : p.Before cs) (hq : p ≠ .quoted "\"")
    (hm : (∀ t ∈ ts, t.Spellable) → (p.isMinus = true ∧ cs.head? = some '-' ↔ m = true))
    (h : Written cs ts b) : Written (p.chars ++ cs) (p.tokens ++ ts) (!m && b) := by
  intro hts
  have hts' : ∀ t ∈ ts, t.Spellable := fun t ht => hts t (List.mem_append_right _ ht)
  obtain ⟨ps, rfl, rfl, hps, hb⟩ := h hts'
  refine ⟨p :: ps, textOf_cons p ps, tokensOf_cons p ps, ⟨hp, hbefore, hps⟩, ?_⟩
  have hmb : (p.isMinus && (textOf ps).head? == some '-') = m :=
    Bool.eq_iff_iff.2 (by simpa only [Bool.and_eq_true, beq_iff_eq] using hm hts')
  rw [Bool.and_eq_true, hb, doubled, hmb, Bool.or_eq_false_iff, List.mem_cons, not_or,
    Bool.not_eq_true']
  constructor
  · rintro ⟨h₁, h₂, h₃⟩
    exact ⟨⟨fun heq => hq heq.symm, h₂⟩, h₁, h₃⟩
  · rintro ⟨⟨-, h₂⟩, h₁, h₃⟩
    exact ⟨h₁, h₂, h₃⟩

theorem Written.blank {c : Char} (hc : c = ' ' ∨ c = '\n') {cs : List Char} {ts : List Token}
    {b : Bool} (h : Written cs ts b) : Written (c :: cs) ts b :=
  h.cons (p := .blank c) (m := false) hc trivial (by simp) (fun _ => by simp [Piece.isMinus])

theorem Written.space {cs : List Char} {ts : List Token} {b : Bool} (h : Written cs ts b) :
    Written (' ' :: cs) ts b := h.blank (.inl rfl)

theorem Written.line {cs : List Char} {ts : List Token} {b : Bool} (h : Written cs ts b) :
    Written ('\n' :: cs) ts b := h.blank (.inr rfl)

theorem Written.lparen {cs : List Char} {ts : List Token} {b : Bool} (h : Written cs ts b) :
    Written ('(' :: cs) (.mark .lparen :: ts) b :=
  h.cons (p := .plain (.mark .lparen)) (m := false) ⟨rfl, trivial⟩ (.inr (.inl rfl)) (by simp)
    (fun _ => by simp [Piece.isMinus, Token.minus])

theorem Written.minus {cs : List Char} {ts : List Token} {m b : Bool} (h : Written cs ts b)
    (hm : (∀ t ∈ ts, t.Spellable) → (cs.head? = some '-' ↔ m = true)) :
    Written ('-' :: cs) (.minus :: ts) (!m && b) :=
  h.cons (p := .plain .minus) ⟨rfl, trivial⟩ (.inl rfl) (by simp)
    (fun hts => by simpa [Piece.isMinus] using hm hts)

/-- Texts one behind the other, if the second starts with a separator. -/
theorem Written.append {cs cs' : List Char} {ts ts' : List Token} {b b' : Bool}
    (h : Written cs ts b) (h' : Written cs' ts' b') (hs : Separated cs') :
    Written (cs ++ cs') (ts ++ ts') (b && b') := by
  intro hts
  obtain ⟨ps, rfl, rfl, hps, hb⟩ := h fun t ht => hts t (List.mem_append_left _ ht)
  obtain ⟨qs, rfl, rfl, hqs, hb'⟩ := h' fun t ht => hts t (List.mem_append_right _ ht)
  refine ⟨ps ++ qs, textOf_append ps qs, tokensOf_append ps qs, hps.append hqs hs, ?_⟩
  rw [Bool.and_eq_true, hb, hb', doubled_append hs, Bool.or_eq_false_iff, List.mem_append, not_or]
  constructor
  · rintro ⟨⟨h₁, h₂⟩, h₃, h₄⟩
    exact ⟨⟨h₁, h₃⟩, h₂, h₄⟩
  · rintro ⟨⟨h₁, h₃⟩, h₂, h₄⟩
    exact ⟨⟨h₁, h₂⟩, h₃, h₄⟩

/-- A plain token with a text behind it. -/
theorem Written.plain {t : Token} (ht : t.isPlain = true) {cs : List Char} {ts : List Token} {b : Bool}
    (h : Written cs ts b) (hs : Separated cs) : Written (t.literal.toList ++ cs) (t :: ts) b :=
  Bool.true_and b ▸ (written_plain ht).append h hs

/-! ### Expressions -/

theorem Token.literal_ofNumber (lexeme : String) : (Token.ofNumber lexeme).literal = lexeme := by
  rcases Token.ofNumber_cases lexeme with h | h <;> rw [h] <;> rfl

theorem isPlain_ofNumber (lexeme : String) : (Token.ofNumber lexeme).isPlain = true := by
  rcases Token.ofNumber_cases lexeme with h | h <;> rw [h] <;> rfl

/-- A token other than a minus does not start with one. -/
theorem head?_literal_ne_minus {t : Token} (hp : t.isPlain = true) (ht : t.Spellable)
    (hne : t ≠ .minus) : t.literal.toList.head? ≠ some '-' := by
  obtain ⟨c, w, hcw, -, hc⟩ := literal_of_isPlain hp ht
  rw [hcw, List.head?_cons]
  intro heq
  exact hne (hc (Option.some.inj heq))

/-- An expression starts with a minus if its first operand has a sign. -/
theorem Expr.head?_canonical {e : Expr} (h : ∀ t ∈ e.tokens, t.Spellable) :
    e.canonical.toList.head? = some '-' ↔ e.leadsWithMinus = true := by
  induction e with
  | var name =>
      have hne := head?_literal_ne_minus (t := .name name.text) rfl (h _ (by simp [Expr.tokens]))
        (by simp [Token.minus])
      simpa [Expr.canonical, Expr.leadsWithMinus, Token.literal] using hne
  | number value lexeme span =>
      have hne := head?_literal_ne_minus (isPlain_ofNumber lexeme) (h _ (by simp [Expr.tokens]))
        (by rcases Token.ofNumber_cases lexeme with h | h <;> simp [h, Token.minus])
      rw [Token.literal_ofNumber] at hne
      simpa [Expr.canonical, Expr.leadsWithMinus] using hne
  | bool value span => cases value <;> simp [Expr.canonical, Expr.leadsWithMinus]
  | text content span => simp [Expr.canonical, Expr.leadsWithMinus]
  | unary op e span => cases op <;> simp [Expr.canonical, Expr.leadsWithMinus]
  | binary op l r span ihl =>
      -- behind the left operand stands a blank, even if the operand has no characters
      have hl := ihl fun t ht => h t (by simp [Expr.tokens, ht])
      rw [Expr.canonical, Expr.leadsWithMinus, ← hl]
      simp only [String.toList_append, List.append_assoc]
      exact head?_append_eq_minus (separated_cons rfl _)
  | group e span => simp [Expr.canonical, Expr.leadsWithMinus]

/-- **The canonical text of an expression is put together from its tokens.** -/
theorem Expr.written (e : Expr) : Written e.canonical.toList e.tokens e.legible := by
  induction e with
  | var name => exact written_plain (t := .name name.text) rfl
  | number value lexeme span =>
      have h := written_plain (isPlain_ofNumber lexeme)
      rw [Token.literal_ofNumber] at h
      exact h
  | bool value span =>
      cases value with
      | true => exact written_plain (t := .oo) rfl
      | false => exact written_plain (t := .dili) rfl
  | text content span =>
      have h := written_piece (p := .quoted content) (b := decide (content ≠ "\""))
        (fun hts => hts (.text content) (by simp [Piece.tokens])) (by simp)
      simp only [Expr.canonical, String.toList_append, List.append_assoc]
      exact h
  | unary op e span ih =>
      cases op with
      | minus =>
          have h := ih.minus Expr.head?_canonical
          simp only [Expr.canonical, String.toList_append]
          exact h
      | dili =>
          have h := ih.space.plain (t := .dili) rfl (separated_cons rfl _)
          simp only [Expr.canonical, String.toList_append]
          exact h
  | binary op l r span ihl ihr =>
      have hr := ihr.space.plain (t := .op op) rfl (separated_cons rfl _)
      have h := ihl.append hr.space (separated_cons rfl _)
      simp only [Expr.canonical, String.toList_append, List.append_assoc]
      exact h
  | group e span ih =>
      have h := (ih.append (written_plain (t := .mark .rparen) rfl) (separated_cons rfl [])).lparen
      rw [Bool.and_true] at h
      simp only [Expr.canonical, String.toList_append, List.append_assoc]
      exact h

/-! ### Parts of statements -/

/-- Parts with a separator between them, each of which may have a text behind it. -/
theorem written_intercalate {α : Type} {text : α → String} {tokens : α → List Token}
    {legible : α → Bool} (sep : String) {t : Token}
    (hsep : ∀ {cs : List Char} {ts : List Token} {b : Bool}, Written cs ts b →
      Written (sep.toList ++ cs) (t :: ts) b)
    (hs : ∀ cs, Separated (sep.toList ++ cs))
    (h : ∀ a, Written (text a).toList (tokens a) (legible a)) (as : List α) :
    Written (sep.intercalate (as.map text)).toList (separated t (as.map tokens))
      (as.all legible) := by
  induction as with
  | nil => exact written_nil
  | cons a as ih =>
      cases as with
      | nil => simpa [separated] using h a
      | cons a' as =>
          have h' := (h a).append (hsep ih) (hs _)
          simp only [List.map_cons, String.intercalate_cons_cons, String.toList_append,
            List.append_assoc]
          exact h'

theorem written_commas {α : Type} {text : α → String} {tokens : α → List Token}
    {legible : α → Bool} (h : ∀ a, Written (text a).toList (tokens a) (legible a)) (as : List α) :
    Written (String.intercalate ", " (as.map text)).toList
      (separated (.mark .comma) (as.map tokens)) (as.all legible) := by
  refine written_intercalate ", " ?_ ?_ h as
  · intro cs ts b h
    exact h.space.plain (t := .mark .comma) rfl (separated_cons rfl _)
  · intro cs
    exact separated_cons rfl (' ' :: cs)

theorem PrintItem.written (i : PrintItem) : Written i.canonical.toList i.tokens i.legible := by
  cases i with
  | text content span =>
      rw [PrintItem.canonical]
      by_cases hc : content = "\""
      · subst hc
        exact written_piece (p := .quote) (fun _ => trivial) (by simp [PrintItem.legible])
      · rw [if_neg hc]
        have h := written_piece (p := .quoted content) (b := true)
          (fun hts => hts (.text content) (by simp [Piece.tokens])) (by simp [hc])
        simp only [String.toList_append, List.append_assoc]
        exact h
  | var name => exact written_plain (t := .name name.text) rfl
  | expr e => exact e.written
  | lineBreak span => exact written_plain (t := .mark .dollar) rfl

/-- A name with an assignment mark. -/
theorem written_target {cs : List Char} {ts : List Token} {b : Bool} (name : String)
    (h : Written cs ts b) :
    Written ((name ++ " = ").toList ++ cs) (.name name :: .mark .assign :: ts) b := by
  have h' := (h.space.plain (t := .mark .assign) rfl (separated_cons rfl _)).space
  simp only [String.toList_append, List.append_assoc]
  exact h'.plain (t := .name name) rfl (separated_cons rfl _)

theorem Declared.written (v : Declared) : Written v.canonical.toList v.tokens v.legible := by
  rw [Declared.canonical, Declared.tokens, Declared.legible]
  cases v.value with
  | some e =>
      simp only [String.toList_append]
      have h := written_target v.name.text e.written
      simp only [String.toList_append] at h
      exact h
  | none => exact written_plain (t := .name v.name.text) rfl

theorem Assignment.written (a : Assignment) :
    Written a.canonical.toList a.tokens a.value.legible := by
  obtain ⟨targets, value, span⟩ := a
  rw [Assignment.canonical, Assignment.tokens]
  induction targets with
  | nil => simpa using value.written
  | cons t targets ih =>
      have h := written_target t.text ih
      rw [List.map_cons, String.join_cons, String.toList_append, String.toList_append,
        List.append_assoc, ← String.toList_append]
      exact h

/-! ### Statements and programs -/

/-- A test in brackets, with a text behind it. -/
theorem written_test (test : Expr) {cs : List Char} {ts : List Token} {b : Bool}
    (h : Written cs ts b) (hs : Separated cs) :
    Written ('(' :: (test.canonical.toList ++ ')' :: cs))
      (.mark .lparen :: (test.tokens ++ .mark .rparen :: ts)) (test.legible && b) :=
  (test.written.append (h.plain (t := .mark .rparen) rfl hs) (separated_cons rfl _)).lparen

theorem Otherwise.separated_canonical (rest : Otherwise) : Separated rest.canonical.toList := by
  cases rest with
  | nothing =>
      show Separated "".toList
      exact fun c hc => absurd hc (by simp)
  | branch test body rest =>
      show Separated ("\nKUNG DILI (" ++ test.canonical ++ ") " ++ body.canonical ++
        rest.canonical).toList
      simp only [String.toList_append, List.append_assoc]
      exact separated_cons rfl _
  | always body =>
      show Separated ("\nKUNG WALA " ++ body.canonical).toList
      simp only [String.toList_append]
      exact separated_cons rfl _

mutual

theorem Stmt.written (s : Stmt) : Written s.canonical.toList s.tokens s.legible := by
  cases s with
  | declaration type vars span =>
      have h := (written_commas Declared.written vars).space.plain (t := .type type) rfl
        (separated_cons rfl _)
      have h' := h.space.plain (t := .word .mugna) rfl (separated_cons rfl _)
      show Written ("MUGNA " ++ type.word ++ " " ++
        String.intercalate ", " (vars.map Declared.canonical)).toList _ _
      simp only [String.toList_append, List.append_assoc]
      exact h'
  | assignment a => exact a.written
  | print items span =>
      have hitems := written_intercalate " & " (t := .mark .ampersand)
        (fun h => (h.space.plain rfl (separated_cons rfl _)).space)
        (fun _ => separated_cons rfl _) PrintItem.written items
      have h := hitems.space.plain (t := .mark .colon) rfl (separated_cons rfl _)
      have h' := h.plain (t := .word .ipakita) rfl (separated_cons rfl _)
      show Written ("IPAKITA: " ++
        String.intercalate " & " (items.map PrintItem.canonical)).toList _ _
      rw [String.toList_append]
      exact h'
  | input names span =>
      have hnames := written_commas (fun n : Name => written_plain (t := .name n.text) rfl) names
      have h := hnames.space.plain (t := .mark .colon) rfl (separated_cons rfl _)
      have h' := h.plain (t := .word .dawat) rfl (separated_cons rfl _)
      rw [List.all_eq_true.2 fun _ _ => rfl] at h'
      show Written ("DAWAT: " ++ String.intercalate ", " (names.map Name.text)).toList _ _
      rw [String.toList_append]
      exact h'
  | conditional test body rest span =>
      have hbody := body.written.append rest.written rest.separated_canonical
      have h := written_test test hbody.space (separated_cons rfl _)
      have h' := h.space.plain (t := .word .kung) rfl (separated_cons rfl _)
      rw [Stmt.legible, Bool.and_assoc]
      show Written ("KUNG (" ++ test.canonical ++ ") " ++ body.canonical ++ rest.canonical).toList _ _
      simp only [String.toList_append, List.append_assoc]
      exact h'
  | loop first test counter step body span =>
      -- the head is put together from its end, as each part asks for what stands behind it
      have hbody := body.written.space.plain (t := .mark .rparen) rfl (separated_cons rfl _)
      have hcounter := (written_piece (p := .counter counter.text step) (b := true)
        (fun hts => hts (.name counter.text) (by simp [Piece.tokens])) (by simp)).append hbody
        (separated_cons rfl _)
      have htest := test.written.append (hcounter.space.plain (t := .mark .comma) rfl
        (separated_cons rfl _)) (separated_cons rfl _)
      have hfirst := first.written.append (htest.space.plain (t := .mark .comma) rfl
        (separated_cons rfl _)) (separated_cons rfl _)
      have h := hfirst.lparen.space.plain (t := .word .sa) rfl (separated_cons rfl _)
      have h' := h.space.plain (t := .word .alang) rfl (separated_cons rfl _)
      rw [Bool.true_and, ← Bool.and_assoc] at h'
      simp only [Piece.chars, List.append_assoc] at h'
      show Written ("ALANG SA (" ++ first.canonical ++ ", " ++ test.canonical ++ ", " ++
        counter.text ++ step.spelling ++ ") " ++ body.canonical).toList _ _
      simp only [String.toList_append, List.append_assoc]
      exact h'

theorem Block.written (b : Block) : Written b.canonical.toList b.tokens b.legible := by
  cases b with
  | mk body span =>
      have hbody := written_lines body (written_plain (t := .mark .rbrace) rfl)
      have h := hbody.line.plain (t := .mark .lbrace) rfl (separated_cons rfl _)
      have h' := h.space.plain (t := .word .pundok) rfl (separated_cons rfl _)
      rw [Bool.and_true] at h'
      show Written ("PUNDOK \x7b\n" ++ canonicalLines body ++ "\x7d").toList _ _
      simp only [String.toList_append, List.append_assoc]
      exact h'

theorem Otherwise.written (rest : Otherwise) :
    Written rest.canonical.toList rest.tokens rest.legible := by
  cases rest with
  | nothing => exact written_nil
  | branch test body rest =>
      have hbody := body.written.append rest.written rest.separated_canonical
      have h := written_test test hbody.space (separated_cons rfl _)
      have h' := h.space.plain (t := .dili) rfl (separated_cons rfl _)
      have h'' := (h'.space.plain (t := .word .kung) rfl (separated_cons rfl _)).line
      rw [Otherwise.legible, Bool.and_assoc]
      show Written ("\nKUNG DILI (" ++ test.canonical ++ ") " ++ body.canonical ++
        rest.canonical).toList _ _
      simp only [String.toList_append, List.append_assoc]
      exact h''
  | always body =>
      have h := body.written.space.plain (t := .word .wala) rfl (separated_cons rfl _)
      have h' := (h.space.plain (t := .word .kung) rfl (separated_cons rfl _)).line
      show Written ("\nKUNG WALA " ++ body.canonical).toList _ _
      rw [String.toList_append]
      exact h'

theorem written_lines (body : List Stmt) {cs : List Char} {ts : List Token} {b : Bool}
    (h : Written cs ts b) :
    Written ((canonicalLines body).toList ++ cs) (bodyTokens body ++ ts) (legibleBody body && b) := by
  cases body with
  | nil => exact h
  | cons s rest =>
      have h' := s.written.append (written_lines rest h).line (separated_cons rfl _)
      rw [bodyTokens, legibleBody, List.append_assoc, Bool.and_assoc]
      show Written ((s.canonical ++ "\n" ++ canonicalLines rest).toList ++ cs) _ _
      simp only [String.toList_append, List.append_assoc]
      exact h'

end

/-- **The canonical text of a program is put together from its tokens.** -/
theorem Program.written (p : Program) : Written p.canonical.toList p.tokens p.legible := by
  have hbody := written_lines p.body (written_plain (t := .word .katapusan) rfl)
  have h := hbody.line.plain (t := .word .sugod) rfl (separated_cons rfl _)
  rw [Bool.and_true] at h
  simp only [Program.canonical, String.toList_append, List.append_assoc]
  exact h

end BisayaLang
