/-
**Recognising what was spelled.**

A token that is written down is read again as itself, if what follows does not go on with it: no letter
behind a word, no digit behind a number, no second character of a longer symbol.  Canonical texts have a
blank, a bracket, a comma or a colon there, and these go on with nothing.

Main definitions:

* `BisayaLang.continuesToken` — characters that can go on with some token;
* `BisayaLang.isSeparator`, `BisayaLang.Separated` — some characters that go on with none, and texts
  that start with one or are empty.

Main results:

* `BisayaLang.recognise_plain` — a token that is not quoted is recognised before what does not go on with
  it;
* `BisayaLang.recognise_quoted` — a quoted text is recognised before anything.
-/

import BisayaLang.Proofs.Token.Spelling

set_option relaxedAutoImplicit false
set_option autoImplicit false

namespace BisayaLang

open Text

/-! ### Separators -/

/-- The character goes on with no token. -/
def isSeparator (c : Char) : Bool := [' ', '\n', ')', ',', ':'].contains c

/-- The text is empty or starts with a separator. -/
def Separated (cs : List Char) : Prop := ∀ c, cs.head? = some c → isSeparator c = true

/-- No character of the class stands at the head of the text. -/
def EndsRun (p : Char → Bool) (cs : List Char) : Prop := ∀ c, cs.head? = some c → p c = false

/-- The character can go on with some token. -/
def continuesToken (c : Char) : Bool :=
  continuesName c || isDigit c || ['.', '=', '>', '+', '-'].contains c

theorem separated_cons {c : Char} (h : isSeparator c = true) (cs : List Char) :
    Separated (c :: cs) := by
  intro d hd
  cases hd
  exact h

theorem Separated.endsRun {cs : List Char} (h : Separated cs) {p : Char → Bool}
    (hp : [' ', '\n', ')', ',', ':'].any p = false) : EndsRun p cs := by
  intro c hc
  have hs := h c hc
  simp only [isSeparator, List.contains_iff_mem] at hs
  exact Bool.eq_false_iff.2 (List.any_eq_false.1 hp c hs)

theorem EndsRun.mono {p q : Char → Bool} {cs : List Char} (h : EndsRun q cs)
    (hpq : ∀ c, p c = true → q c = true) : EndsRun p cs := by
  intro c hc
  have hq := h c hc
  cases hp : p c with
  | false => rfl
  | true => exact absurd (hpq c hp) (by simp [hq])

theorem endsRun_nil (p : Char → Bool) : EndsRun p [] := by
  intro c hc
  cases hc

/-- A run of characters of a class ends where the class does. -/
theorem takeWhile_run {p : Char → Bool} {run cs : List Char} (hrun : ∀ c ∈ run, p c = true)
    (hcs : EndsRun p cs) : (run ++ cs).takeWhile p = run ∧ (run ++ cs).dropWhile p = cs := by
  induction run with
  | nil =>
      cases cs with
      | nil => exact ⟨rfl, rfl⟩
      | cons c cs =>
          have hc := hcs c rfl
          simp [hc]
  | cons d run ih =>
      obtain ⟨h₁, h₂⟩ := ih fun c hc => hrun c (by simp [hc])
      have hd := hrun d (by simp)
      simp [hd, h₁, h₂]

/-! ### Words -/

theorem isDigit_of_startsName {c : Char} (h : startsName c = true) : isDigit c = false := by
  cases hd : isDigit c with
  | false => rfl
  | true =>
      have hlow : 48 ≤ c.toNat ∧ c.toNat ≤ 57 := by
        simp only [isDigit, Bool.and_eq_true, decide_eq_true_eq] at hd
        exact hd
      have hupper : c.isUpper = false := by
        refine decide_eq_false fun hle => ?_
        have hnat : 65 ≤ c.toNat := hle.1
        omega
      have hlower : c.isLower = false := by
        refine Bool.and_eq_false_iff.2 (.inl (decide_eq_false fun hle => ?_))
        have hnat : 97 ≤ c.toNat := hle
        omega
      have halpha : c.isAlpha = false := Bool.or_eq_false_iff.2 ⟨hupper, hlower⟩
      have hne : c ≠ '_' := by
        rintro rfl
        exact absurd hlow (by decide)
      simp [startsName, isAlphabetic, halpha, hne, show c.toNat < 0x80 by omega] at h

theorem recognise_word {w cs : List Char} {c : Char} (glued : Bool) (hs : startsName c = true)
    (hw : ∀ d ∈ w, continuesName d = true) (hcs : EndsRun continuesName cs) :
    Token.recognise glued (c :: w ++ cs) =
      .token (.ofWord (String.ofList (c :: w))) (w.length + 1) := by
  obtain ⟨hf, hq, hq'⟩ := foldQuote_of_continuesName (continuesName_of_startsName hs)
  have hrun : ∀ d ∈ c :: w, continuesName d = true := by
    intro d hd
    rcases List.mem_cons.1 hd with rfl | hd
    · exact continuesName_of_startsName hs
    · exact hw d hd
  have htake := (takeWhile_run hrun hcs).1
  rw [List.cons_append] at htake ⊢
  simp only [Token.recognise, hf, hq, hq', isDigit_of_startsName hs, hs, if_false, if_true,
    Bool.false_eq_true, Token.readWord, htake, List.length_cons]

/-! ### Numbers -/

theorem recognise_digit {cs : List Char} {c : Char} (glued : Bool) (hd : isDigit c = true) :
    Token.recognise glued (c :: cs) = Token.readNumber (c :: cs) := by
  obtain ⟨hf, hq, hq'⟩ := foldQuote_of_digit hd
  simp only [Token.recognise, hf, hq, hq', hd, if_false, if_true]

theorem recognise_integer {ds cs : List Char} (glued : Bool) (hne : ds ≠ [])
    (hds : ∀ c ∈ ds, isDigit c = true) (hcs : EndsRun isDigit cs)
    (hdot : EndsRun (· == '.') cs) :
    Token.recognise glued (ds ++ cs) = .token (.integer (String.ofList ds)) ds.length := by
  obtain ⟨htake, hdrop⟩ := takeWhile_run hds hcs
  obtain ⟨c, ds, rfl⟩ := List.exists_cons_of_ne_nil hne
  rw [List.cons_append, recognise_digit glued (hds c (by simp)), ← List.cons_append]
  unfold Token.readNumber
  rw [htake, hdrop]
  split
  · rename_i d rest
    exact absurd (hdot '.' rfl) (by simp)
  · rfl

theorem recognise_decimal {whole fraction cs : List Char} (glued : Bool) (hw : whole ≠ [])
    (hf : fraction ≠ []) (hdw : ∀ c ∈ whole, isDigit c = true)
    (hdf : ∀ c ∈ fraction, isDigit c = true) (hcs : EndsRun isDigit cs) :
    Token.recognise glued (whole ++ '.' :: fraction ++ cs) =
      .token (.decimal (String.ofList (whole ++ '.' :: fraction)))
        (whole ++ '.' :: fraction).length := by
  have hpoint : EndsRun isDigit ('.' :: (fraction ++ cs)) := by
    intro c hc
    cases hc
    decide
  obtain ⟨htake, hdrop⟩ := takeWhile_run hdw hpoint
  obtain ⟨htake', -⟩ := takeWhile_run hdf hcs
  obtain ⟨c, whole, rfl⟩ := List.exists_cons_of_ne_nil hw
  obtain ⟨d, fraction, rfl⟩ := List.exists_cons_of_ne_nil hf
  have hd : isDigit d = true := hdf d (by simp)
  rw [List.append_assoc, List.cons_append, List.cons_append, recognise_digit glued
    (hdw c (by simp)), ← List.cons_append]
  unfold Token.readNumber
  rw [htake, hdrop]
  simp only [List.cons_append] at htake' ⊢
  simp only [hd, if_true, htake', Lexeme.token.injEq, true_and]
  simp only [List.length_append, List.length_cons]
  omega

/-! ### Quoted texts -/

theorem recognise_quoted {content : String} (glued : Bool) (cs : List Char)
    (hf : ∀ c ∈ content.toList, foldQuote c = c) (hq : '"' ∉ content.toList) :
    Token.recognise glued ('"' :: (content.toList ++ '"' :: cs)) =
      .token (.text content) (content.toList.length + 2) := by
  have hrun : ∀ c ∈ content.toList, (foldQuote c != '"') = true := by
    intro c hc
    rw [hf c hc]
    simpa using fun h : c = '"' => hq (h ▸ hc)
  have hend : EndsRun (fun c => foldQuote c != '"') ('"' :: cs) := by
    intro c hc
    cases hc
    rfl
  obtain ⟨htake, hdrop⟩ := takeWhile_run hrun hend
  have hmap : content.toList.map foldQuote = content.toList := by
    conv => rhs; rw [← List.map_id content.toList]
    exact List.map_congr_left fun c hc => hf c hc
  rw [Token.recognise, if_pos (by rfl), Token.readString, htake, hdrop, hmap, String.ofList_toList]

theorem recognise_quote (glued : Bool) (cs : List Char) :
    Token.recognise glued ('\'' :: '"' :: '\'' :: cs) = .token (.text "\"") 3 := rfl

/-! ### Symbols -/

/-- A character that starts neither a quoted text nor a number nor a word is looked up as a symbol. -/
theorem recognise_symbol {glued : Bool} {c : Char} {cs : List Char} {t : Token} {n : Nat}
    (hc : foldQuote c ≠ '"' ∧ foldQuote c ≠ '\'' ∧ isDigit c = false ∧ startsName c = false)
    (h : Token.symbol? glued c cs.head? = some (t, n)) :
    Token.recognise glued (c :: cs) = .token t n := by
  obtain ⟨h₁, h₂, h₃, h₄⟩ := hc
  simp only [Token.recognise, h₁, h₂, h₃, h₄, if_false, Bool.false_eq_true, h]

/-- A token of one spelling, or a name or a number: everything but quoted texts, the steps of loops, and
the end. -/
def Token.isPlain : Token → Bool
  | .text _ | .step _ | .eof => false
  | _ => true

/-- A token that is neither a word nor a number. -/
def Token.isSymbol : Token → Bool
  | .op (.arithmetic _) | .op (.comparison _) | .mark _ => true
  | _ => false

/-- The first character of a symbol starts nothing else, and only a minus starts with one. -/
theorem literal_of_isSymbol {t : Token} (ht : t.isSymbol = true) :
    ∃ c w, t.literal.toList = c :: w ∧
      (foldQuote c ≠ '"' ∧ foldQuote c ≠ '\'' ∧ isDigit c = false ∧ startsName c = false) ∧
      isSpace c = false ∧ (c = '-' → t = .op (.arithmetic .sub)) := by
  cases t with
  | op o =>
      cases o with
      | arithmetic a => cases a <;> exact ⟨_, _, rfl, by decide, by decide, by decide⟩
      | comparison c => cases c <;> exact ⟨_, _, rfl, by decide, by decide, by decide⟩
      | connective _ => cases ht
  | mark m => cases m <;> exact ⟨_, _, rfl, by decide, by decide, by decide⟩
  | _ => cases ht

/-- Before a character that goes on with no token, a symbol is looked up as at the end of the text. -/
theorem symbol?_of_endsRun (glued : Bool) (c : Char) {cs : List Char} (hcs : EndsRun continuesToken cs) :
    Token.symbol? glued c cs.head? = Token.symbol? glued c none := by
  cases hd : cs.head? with
  | none => rfl
  | some d =>
      have hne : ∀ e ∈ ['=', '>', '+', '-'], d ≠ e := by
        rintro e he rfl
        have hall : ['=', '>', '+', '-'].all continuesToken = true := by decide +kernel
        exact absurd (List.all_eq_true.1 hall d he) (by simp [hcs d hd])
      simp only [List.mem_cons, List.not_mem_nil, or_false, forall_eq_or_imp, forall_eq] at hne
      unfold Token.symbol?
      split <;> simp_all

/-- A symbol is not taken for a longer one, if what follows does not go on with it. -/
theorem symbol?_of_isSymbol {t : Token} (ht : t.isSymbol = true) {c : Char} {w : List Char}
    (hw : t.literal.toList = c :: w) {cs : List Char} (hcs : EndsRun continuesToken cs) :
    Token.symbol? false c (w ++ cs).head? = some (t, w.length + 1) := by
  have hhead : Token.symbol? false c (w ++ cs).head? = Token.symbol? false c w.head? := by
    cases w with
    | nil => exact symbol?_of_endsRun false c hcs
    | cons d w => rfl
  rw [hhead]
  cases t with
  | op o =>
      cases o with
      | arithmetic a => cases a <;> cases hw <;> rfl
      | comparison c => cases c <;> cases hw <;> rfl
      | connective _ => cases ht
  | mark m => cases m <;> cases hw <;> rfl
  | _ => cases ht

/-- A reserved word is read as its own token. -/
theorem ofWord_literal {t : Token} (hp : t.isPlain = true) (hs : t.Spellable)
    (hn : t.isSymbol = false) (hd : ∀ s, t ≠ .integer s ∧ t ≠ .decimal s) :
    Token.ofWord t.literal = t ∧ ∃ c w, t.literal.toList = c :: w ∧ startsName c = true ∧
      ∀ d ∈ w, continuesName d = true := by
  cases t with
  | name s =>
      obtain ⟨⟨c, w, hcw, hc⟩, hall, hword⟩ := hs
      refine ⟨?_, c, w, hcw, hc, fun d hd => hall d (by rw [hcw]; simp [hd])⟩
      rw [Token.literal, Token.ofWord, hword]
      rfl
  | integer s => exact absurd rfl (hd s).1
  | decimal s => exact absurd rfl (hd s).2
  | oo => exact ⟨rfl, _, _, rfl, by decide, List.all_eq_true.1 (by decide)⟩
  | dili => exact ⟨rfl, _, _, rfl, by decide, List.all_eq_true.1 (by decide)⟩
  | word w => cases w <;> exact ⟨rfl, _, _, rfl, by decide, List.all_eq_true.1 (by decide)⟩
  | type t => cases t <;> exact ⟨rfl, _, _, rfl, by decide, List.all_eq_true.1 (by decide)⟩
  | op o =>
      cases o with
      | connective c => cases c <;> exact ⟨rfl, _, _, rfl, by decide, List.all_eq_true.1 (by decide)⟩
      | _ => cases hn
  | mark m => cases hn
  | text _ => cases hp
  | step _ => cases hp
  | eof => cases hp

/-- A name is recognised before anything but another letter, and so also right before a step. -/
theorem recognise_name {s : String} (hs : (Token.name s).Spellable) {cs : List Char}
    (hcs : EndsRun continuesName cs) :
    Token.recognise false (s.toList ++ cs) = .token (.name s) s.toList.length := by
  obtain ⟨hword, c, w, hcw, hc, hall⟩ := ofWord_literal (by rfl) hs rfl (by simp)
  change s.toList = c :: w at hcw
  rw [hcw, recognise_word false hc hall hcs, ← hcw, String.ofList_toList, hcw, List.length_cons]
  exact congrArg (Lexeme.token · _) hword

/-- **A token that is not quoted is recognised** before what does not go on with it. -/
theorem recognise_plain {t : Token} (hp : t.isPlain = true) (hs : t.Spellable) {cs : List Char}
    (hcs : EndsRun continuesToken cs) :
    Token.recognise false (t.literal.toList ++ cs) = .token t t.literal.toList.length := by
  have hdigit : EndsRun isDigit cs := hcs.mono fun c h => by simp [continuesToken, h]
  by_cases hsym : t.isSymbol = true
  · obtain ⟨c, w, hw, hc, -, -⟩ := literal_of_isSymbol hsym
    rw [hw, List.cons_append, recognise_symbol hc (symbol?_of_isSymbol hsym hw hcs),
      List.length_cons]
  · cases t with
    | integer s =>
        obtain ⟨hne, hall⟩ := hs
        have hdot : EndsRun (· == '.') cs := hcs.mono fun c h => by simp_all [continuesToken]
        rw [Token.literal, recognise_integer false hne hall hdigit hdot, String.ofList_toList]
    | decimal s =>
        obtain ⟨whole, fraction, heq, hw, hf, hdw, hdf⟩ := hs
        rw [Token.literal, heq, recognise_decimal false hw hf hdw hdf hdigit, ← heq,
          String.ofList_toList]
    | _ =>
        have hword : EndsRun continuesName cs := hcs.mono fun c h => by simp [continuesToken, h]
        obtain ⟨hof, c, w, hcw, hc, hall⟩ := ofWord_literal hp hs (by simpa using hsym) (by simp)
        rw [hcw, recognise_word false hc hall hword, ← hcw, String.ofList_toList, hof, hcw,
          List.length_cons]

/-- A token that is not quoted starts with no blank, and only a minus starts with one. -/
theorem literal_of_isPlain {t : Token} (hp : t.isPlain = true) (hs : t.Spellable) :
    ∃ c w, t.literal.toList = c :: w ∧ isSpace c = false ∧
      (c = '-' → t = .op (.arithmetic .sub)) := by
  have hclass : ∀ {p : Char → Bool}, ['\n', ' ', '\t', '\x0c', '\r', '-'].any p = false →
      ∀ {c : Char}, p c = true → isSpace c = false ∧ c ≠ '-' := by
    intro p hp c hc
    have hne := ne_of_any_eq_false hp hc
    refine ⟨?_, hne _ (by simp)⟩
    simp only [isSpace, Bool.or_eq_false_iff, decide_eq_false_iff_not]
    exact ⟨⟨⟨⟨hne _ (by simp), hne _ (by simp)⟩, hne _ (by simp)⟩, hne _ (by simp)⟩, hne _ (by simp)⟩
  by_cases hsym : t.isSymbol = true
  · obtain ⟨c, w, hw, -, hspace, hdash⟩ := literal_of_isSymbol hsym
    exact ⟨c, w, hw, hspace, hdash⟩
  · cases t with
    | integer s =>
        obtain ⟨hne, hall⟩ := hs
        obtain ⟨c, w, hcw⟩ := List.exists_cons_of_ne_nil hne
        obtain ⟨h₁, h₂⟩ := hclass (by decide) (hall c (by rw [hcw]; simp))
        exact ⟨c, w, hcw, h₁, fun h => absurd h h₂⟩
    | decimal s =>
        obtain ⟨whole, fraction, heq, hw, -, hdw, -⟩ := hs
        obtain ⟨c, w, rfl⟩ := List.exists_cons_of_ne_nil hw
        obtain ⟨h₁, h₂⟩ := hclass (by decide) (hdw c (by simp))
        exact ⟨c, w ++ '.' :: fraction, heq, h₁, fun h => absurd h h₂⟩
    | _ =>
        obtain ⟨-, c, w, hcw, hc, -⟩ := ofWord_literal hp hs (by simpa using hsym) (by simp)
        obtain ⟨h₁, h₂⟩ := hclass (by decide) hc
        exact ⟨c, w, hcw, h₁, fun h => absurd h h₂⟩

end BisayaLang
