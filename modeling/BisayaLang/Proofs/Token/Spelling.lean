/-
**How tokens are spelled.**

The characters that a token takes determine it, and it nearly determines them: only a quoted text may be
written in two ways, and with typographic quotes.  So a text cannot have more of some character than its
tokens account for, blanks and comments apart.  Two characters are counted here.  A minus that is lost
can only be lost in a comment, since a comment starts with one; and where no comment is, a double quote
can only belong to a quoted text.

Main definitions:

* `BisayaLang.Spelled` — the characters spell the token;
* `BisayaLang.Token.Spellable` — a token that some characters spell;
* `BisayaLang.Token.dashes`, `BisayaLang.Token.quotes` — the minus signs of a token, and the double
  quotes that it can be written with.

Main results:

* `BisayaLang.Lexes.spellable` — every token of a text can be spelled;
* `BisayaLang.Lexes.dashes_le`, `BisayaLang.Lexes.quotes_le` — **what the tokens of a text account for**.
-/

import BisayaLang.Proofs.Token.Lexing

set_option relaxedAutoImplicit false
set_option autoImplicit false

namespace BisayaLang

open Text

/-! ### Characters -/

/-- The character is a double quote, plain or typographic. -/
def isDoubleQuote (c : Char) : Bool := foldQuote c == '"'

/-- Only the four typographic quotes are read as something else. -/
theorem foldQuote_cases (c : Char) :
    foldQuote c = c ∨ c = '\u2018' ∨ c = '\u2019' ∨ c = '\u201c' ∨ c = '\u201d' := by
  unfold foldQuote
  split
  · rename_i h
    rcases h with h | h <;> simp [h]
  · split
    · rename_i h
      rcases h with h | h <;> simp [h]
    · exact .inl rfl

theorem foldQuote_foldQuote (c : Char) : foldQuote (foldQuote c) = foldQuote c := by
  rcases foldQuote_cases c with h | rfl | rfl | rfl | rfl
  · rw [h, h]
  · rfl
  · rfl
  · rfl
  · rfl

theorem foldQuote_eq_dash {c : Char} : foldQuote c = '-' ↔ c = '-' := by
  constructor
  · intro h
    rcases foldQuote_cases c with h' | rfl | rfl | rfl | rfl
    · exact h' ▸ h
    all_goals exact absurd h (by decide)
  · rintro rfl
    rfl

/-- A character of a class is none of the characters that are not in it. -/
theorem ne_of_any_eq_false {p : Char → Bool} {ds : List Char} (hp : ds.any p = false) {c : Char}
    (h : p c = true) : ∀ d ∈ ds, c ≠ d := by
  rintro d hd rfl
  exact List.any_eq_false.1 hp c hd h

/-- A class of characters without quotes. -/
theorem foldQuote_of_class {p : Char → Bool}
    (hp : ['"', '\'', '\u2018', '\u2019', '\u201c', '\u201d'].any p = false) {c : Char}
    (h : p c = true) : foldQuote c = c ∧ c ≠ '"' ∧ c ≠ '\'' := by
  have hne := ne_of_any_eq_false hp h
  refine ⟨?_, hne _ (by simp), hne _ (by simp)⟩
  rcases foldQuote_cases c with h' | h' | h' | h' | h'
  · exact h'
  all_goals exact absurd h' (hne _ (by simp))

theorem foldQuote_of_digit {c : Char} (h : isDigit c = true) :
    foldQuote c = c ∧ c ≠ '"' ∧ c ≠ '\'' := foldQuote_of_class (by decide) h

theorem foldQuote_of_continuesName {c : Char} (h : continuesName c = true) :
    foldQuote c = c ∧ c ≠ '"' ∧ c ≠ '\'' := foldQuote_of_class (by decide +kernel) h

theorem continuesName_of_startsName {c : Char} (h : startsName c = true) :
    continuesName c = true := by
  unfold startsName at h
  unfold continuesName
  rcases Bool.or_eq_true _ _ |>.mp h with h | h <;> simp [h]

/-! ### The characters of a token -/

/-- The characters spell the token. -/
inductive Spelled : List Char → Token → Prop
  | string {q q' : Char} {content : List Char} : foldQuote q = '"' → foldQuote q' = '"' →
      (∀ c ∈ content, foldQuote c ≠ '"') →
      Spelled (q :: (content ++ [q'])) (.text (String.ofList (content.map foldQuote)))
  | character {q c q' : Char} : foldQuote q = '\'' → foldQuote q' = '\'' →
      Spelled [q, c, q'] (.text (String.ofList [foldQuote c]))
  | integer {digits : List Char} : digits ≠ [] → (∀ c ∈ digits, isDigit c = true) →
      Spelled digits (.integer (String.ofList digits))
  | decimal {whole fraction : List Char} : whole ≠ [] → fraction ≠ [] →
      (∀ c ∈ whole, isDigit c = true) → (∀ c ∈ fraction, isDigit c = true) →
      Spelled (whole ++ '.' :: fraction) (.decimal (String.ofList (whole ++ '.' :: fraction)))
  | word {c : Char} {cs : List Char} : startsName c = true →
      (∀ d ∈ cs, continuesName d = true) → Spelled (c :: cs) (.ofWord (String.ofList (c :: cs)))
  | symbol {glued : Bool} {c : Char} {d : Option Char} {t : Token} {n : Nat} :
      Token.symbol? glued c d = some (t, n) → Spelled t.literal.toList t

/-- A symbol takes the characters of its spelling, of which there are at most two. -/
theorem symbol?_spells {glued : Bool} {c : Char} {d : Option Char} {t : Token} {n : Nat}
    (h : Token.symbol? glued c d = some (t, n)) :
    (c :: d.toList).take n = t.literal.toList ∧ n ≤ 2 := by
  unfold Token.symbol? at h
  split at h <;> first | (split at h <;> simp at h) | simp at h
  all_goals
      obtain ⟨rfl, rfl⟩ := h
      exact ⟨rfl, by decide⟩

theorem take_symbol {glued : Bool} {c : Char} {cs : List Char} {t : Token} {n : Nat}
    (h : Token.symbol? glued c cs.head? = some (t, n)) :
    (c :: cs).take n = t.literal.toList := by
  obtain ⟨hlit, hn⟩ := symbol?_spells h
  rw [← hlit]
  match n, hn with
  | 0, _ => rfl
  | 1, _ => rfl
  | 2, _ => cases cs <;> rfl

theorem mem_takeWhile {p : Char → Bool} {cs : List Char} {c : Char} (h : c ∈ cs.takeWhile p) :
    p c = true := by
  have hall := List.all_takeWhile (p := p) (l := cs)
  exact List.all_eq_true.1 hall c h

/-- As many characters as a run at the head has are that run. -/
theorem take_run {run rest cs : List Char} (h : run ++ rest = cs) {n : Nat} (hn : n = run.length) :
    cs.take n = run := by
  rw [← h, hn]
  exact List.take_left

theorem take_takeWhile (p : Char → Bool) (cs : List Char) :
    cs.take (cs.takeWhile p).length = cs.takeWhile p :=
  take_run List.takeWhile_append_dropWhile rfl

theorem spelled_of_readNumber {c : Char} {cs : List Char} {t : Token} {n : Nat}
    (hd : isDigit c = true) (h : Token.readNumber (c :: cs) = .token t n) :
    Spelled ((c :: cs).take n) t := by
  have hwhole : (c :: cs).takeWhile isDigit ≠ [] := by
    rw [List.takeWhile_cons_of_pos hd]
    simp
  have hinteger : Spelled ((c :: cs).take ((c :: cs).takeWhile isDigit).length)
      (.integer (String.ofList ((c :: cs).takeWhile isDigit))) := by
    rw [take_takeWhile]
    exact .integer hwhole fun d hd => mem_takeWhile hd
  unfold Token.readNumber at h
  split at h
  · rename_i d rest hdrop
    split at h
    · rename_i hdigit
      cases h
      have hrun : (c :: cs).takeWhile isDigit ++ '.' :: (d :: rest).takeWhile isDigit ++
          (d :: rest).dropWhile isDigit = c :: cs := by
        rw [List.append_assoc, List.cons_append, List.takeWhile_append_dropWhile, ← hdrop,
          List.takeWhile_append_dropWhile]
      rw [take_run hrun (by simp only [List.length_append, List.length_cons]; omega)]
      refine .decimal hwhole ?_ (fun d hd => mem_takeWhile hd) fun d hd => mem_takeWhile hd
      rw [List.takeWhile_cons_of_pos hdigit]
      simp
    · cases h
      exact hinteger
  · cases h
    exact hinteger

theorem spelled_of_readString {q : Char} {cs : List Char} {t : Token} {n : Nat}
    (hq : foldQuote q = '"') (h : Token.readString cs = .token t n) :
    Spelled ((q :: cs).take n) t := by
  unfold Token.readString at h
  split at h
  · cases h
  · rename_i q' rest hdrop
    cases h
    have hq' : foldQuote q' = '"' := by
      have hhead := List.head?_dropWhile_not (fun c => foldQuote c != '"') cs
      rw [hdrop] at hhead
      simpa using hhead
    have hcs := List.takeWhile_append_dropWhile (p := fun c => foldQuote c != '"') (l := cs)
    rw [hdrop] at hcs
    have hrun : q :: ((cs.takeWhile fun c => foldQuote c != '"') ++ [q']) ++ rest = q :: cs := by
      rw [List.cons_append, List.append_assoc]
      exact congrArg (q :: ·) hcs
    rw [take_run hrun (by simp)]
    exact .string hq hq' fun d hd => by simpa using mem_takeWhile hd

/-- The characters that a token takes spell it. -/
theorem spelled_of_recognise {glued : Bool} {cs : List Char} {t : Token} {n : Nat} (hne : cs ≠ [])
    (h : Token.recognise glued cs = .token t n) : Spelled (cs.take n) t := by
  obtain ⟨c, cs, rfl⟩ := List.exists_cons_of_ne_nil hne
  simp only [Token.recognise] at h
  split at h
  · rename_i hq
    exact spelled_of_readString hq h
  split at h
  · rename_i hq
    unfold Token.readCharacter at h
    split at h
    · cases h
    · cases h
    · split at h
      · rename_i hq'
        cases h
        exact .character hq hq'
      · cases h
  split at h
  · rename_i hd
    exact spelled_of_readNumber hd h
  split at h
  · rename_i hs
    cases h
    rw [take_takeWhile, List.takeWhile_cons_of_pos (continuesName_of_startsName hs)]
    exact .word hs fun d hd => mem_takeWhile hd
  · split at h
    · rename_i hsym
      cases h
      rw [take_symbol hsym]
      exact .symbol hsym
    · cases h

/-! ### Tokens that can be spelled -/

/-- Some characters spell the token. -/
def Token.Spellable : Token → Prop
  | .name s => (∃ c cs, s.toList = c :: cs ∧ startsName c = true) ∧
      (∀ c ∈ s.toList, continuesName c = true) ∧ Token.ofWord? s = none
  | .integer s => s.toList ≠ [] ∧ ∀ c ∈ s.toList, isDigit c = true
  | .decimal s => ∃ whole fraction, s.toList = whole ++ '.' :: fraction ∧ whole ≠ [] ∧
      fraction ≠ [] ∧ (∀ c ∈ whole, isDigit c = true) ∧ ∀ c ∈ fraction, isDigit c = true
  | .text s => (∀ c ∈ s.toList, foldQuote c = c) ∧ ('"' ∈ s.toList → s = "\"")
  | _ => True

/-- The minus signs of a token. -/
def Token.dashes (t : Token) : Nat := t.literal.toList.count '-'

/-- The double quotes that a token can be written with at most. -/
def Token.quotes : Token → Nat
  | .text s => if s = "\"" then 1 else 2
  | _ => 0

theorem literal_ofWord (word : String) : (Token.ofWord word).literal = word := by
  unfold Token.ofWord
  cases h : Token.ofWord? word with
  | none => rfl
  | some t => exact Token.literal_of_ofWord? h

theorem Spelled.spellable {cs : List Char} {t : Token} (h : Spelled cs t) : t.Spellable := by
  cases h with
  | @string _ _ content hq hq' hc =>
      refine ⟨?_, ?_⟩
      · intro c hmem
        rw [String.toList_ofList] at hmem
        obtain ⟨d, -, rfl⟩ := List.mem_map.1 hmem
        exact foldQuote_foldQuote d
      · intro hmem
        rw [String.toList_ofList] at hmem
        obtain ⟨d, hd, hfold⟩ := List.mem_map.1 hmem
        exact absurd hfold (hc d hd)
  | @character _ c _ hq hq' =>
      refine ⟨?_, ?_⟩
      · intro d hmem
        rw [String.toList_ofList, List.mem_singleton] at hmem
        rw [hmem, foldQuote_foldQuote]
      · intro hmem
        rw [String.toList_ofList, List.mem_singleton] at hmem
        rw [← hmem]
  | integer hne hd => exact ⟨by rw [String.toList_ofList]; exact hne, by
      rw [String.toList_ofList]; exact hd⟩
  | decimal hw hf hdw hdf => exact ⟨_, _, String.toList_ofList, hw, hf, hdw, hdf⟩
  | @word c cs hs hc =>
      unfold Token.ofWord
      cases hword : Token.ofWord? (String.ofList (c :: cs)) with
      | none =>
          refine ⟨⟨c, cs, String.toList_ofList, hs⟩, ?_, hword⟩
          intro d hd
          rw [String.toList_ofList] at hd
          rcases List.mem_cons.1 hd with rfl | hd
          · exact continuesName_of_startsName hs
          · exact hc d hd
      | some t =>
          -- a reserved word has one spelling, and nothing is asked of it
          unfold Token.ofWord? at hword
          split at hword <;> cases hword <;> trivial
  | symbol hsym =>
      rcases symbol?_kind hsym with ⟨_, rfl⟩ | ⟨_, rfl⟩ | ⟨_, rfl⟩ <;> trivial

theorem count_map_foldQuote (cs : List Char) : (cs.map foldQuote).count '-' = cs.count '-' := by
  induction cs with
  | nil => rfl
  | cons c cs ih =>
      rw [List.map_cons, List.count_cons, List.count_cons, ih]
      by_cases hc : c = '-'
      · rw [hc]
        rfl
      · have hf : foldQuote c ≠ '-' := fun h => hc (foldQuote_eq_dash.1 h)
        simp [hc, hf]

/-- The characters of a token have its minus signs. -/
theorem Spelled.dashes_eq {cs : List Char} {t : Token} (h : Spelled cs t) :
    cs.count '-' = t.dashes := by
  have hquote : ∀ {q r : Char}, foldQuote q = r → r ≠ '-' → (q == '-') = false := by
    rintro q _ rfl hq
    simpa using fun h => hq (foldQuote_eq_dash.2 h)
  cases h with
  | @string q q' content hq hq' hc =>
      have h₁ := hquote hq (by decide)
      have h₂ := hquote hq' (by decide)
      rw [Token.dashes, Token.literal, String.toList_ofList, count_map_foldQuote]
      simp [List.count_cons, h₁, h₂]
  | @character q c q' hq hq' =>
      have h₁ := hquote hq (by decide)
      have h₂ := hquote hq' (by decide)
      have hc := count_map_foldQuote [c]
      rw [Token.dashes, Token.literal, String.toList_ofList]
      rw [List.map_singleton] at hc
      rw [hc]
      simp [List.count_cons, h₁, h₂]
  | integer _ _ => rw [Token.dashes, Token.literal, String.toList_ofList]
  | decimal _ _ _ _ => rw [Token.dashes, Token.literal, String.toList_ofList]
  | word _ _ => rw [Token.dashes, literal_ofWord, String.toList_ofList]
  | symbol _ => rfl

theorem countP_isDoubleQuote_eq_zero {p : Char → Bool} {cs : List Char}
    (hp : ∀ {c : Char}, p c = true → foldQuote c = c ∧ c ≠ '"' ∧ c ≠ '\'')
    (h : ∀ c ∈ cs, p c = true) : cs.countP isDoubleQuote = 0 := by
  refine List.countP_eq_zero.2 fun c hc => ?_
  obtain ⟨hf, hne, -⟩ := hp (h c hc)
  simp [isDoubleQuote, hf, hne]

/-- The characters of a token have no more double quotes than it can be written with. -/
theorem Spelled.quotes_le {cs : List Char} {t : Token} (h : Spelled cs t) :
    cs.countP isDoubleQuote ≤ t.quotes := by
  cases h with
  | @string q q' content hq hq' hc =>
      -- no double quote stands between the quotes, so that the token may be written with both
      have hcontent : content.countP isDoubleQuote = 0 :=
        List.countP_eq_zero.2 fun c hmem => by simpa [isDoubleQuote] using hc c hmem
      have hne : String.ofList (content.map foldQuote) ≠ "\"" := by
        intro heq
        have hmem : '"' ∈ (String.ofList (content.map foldQuote)).toList := by rw [heq]; decide
        rw [String.toList_ofList] at hmem
        obtain ⟨d, hd, hfold⟩ := List.mem_map.1 hmem
        exact hc d hd hfold
      rw [List.countP_cons, List.countP_append, hcontent, Token.quotes, if_neg hne]
      simp only [List.countP_cons, List.countP_nil]
      split <;> split <;> omega
  | @character q c q' hq hq' =>
      have h₁ : isDoubleQuote q = false := by rw [isDoubleQuote, hq]; rfl
      have h₂ : isDoubleQuote q' = false := by rw [isDoubleQuote, hq']; rfl
      simp only [List.countP_cons, List.countP_nil, h₁, h₂]
      rw [Token.quotes]
      by_cases hc : isDoubleQuote c = true
      · simp [hc]
        split <;> omega
      · simp [hc]
  | integer _ hd => exact Nat.le_of_eq (countP_isDoubleQuote_eq_zero foldQuote_of_digit hd)
  | decimal _ _ hw hf =>
      rw [List.countP_append, List.countP_cons,
        countP_isDoubleQuote_eq_zero foldQuote_of_digit hw,
        countP_isDoubleQuote_eq_zero foldQuote_of_digit hf]
      exact Nat.le_refl 0
  | @word c cs hs hc =>
      have hword : (c :: cs).countP isDoubleQuote = 0 := by
        refine countP_isDoubleQuote_eq_zero foldQuote_of_continuesName fun d hd => ?_
        rcases List.mem_cons.1 hd with rfl | hd
        · exact continuesName_of_startsName hs
        · exact hc d hd
      rw [hword]
      exact Nat.zero_le _
  | symbol hsym =>
      rcases symbol?_kind hsym with ⟨o, rfl⟩ | ⟨s, rfl⟩ | ⟨m, rfl⟩
      · rcases o with (_ | _ | _ | _ | _) | (_ | _ | _ | _ | _ | _) | (_ | _) <;> decide
      · cases s <;> decide
      · cases m <;> decide

/-! ### What the tokens of a text account for -/

/-- What is skipped as blanks and comments: only blanks, unless there is a minus sign in it. -/
theorem afterTrivia_eq (comment : Bool) (cs : List Char) :
    ∃ skipped, cs = skipped ++ afterTrivia comment cs ∧
      (comment = false → skipped.count '-' = 0 → ∀ c ∈ skipped, isSpace c = true) := by
  induction cs generalizing comment with
  | nil =>
      refine ⟨[], ?_, fun _ _ c hc => absurd hc (by simp)⟩
      cases comment <;> rfl
  | cons c cs ih =>
      cases comment with
      | true =>
          obtain ⟨skipped, hs, -⟩ := ih (c != '\n')
          refine ⟨c :: skipped, ?_, fun h => absurd h (by simp)⟩
          rw [afterTrivia, List.cons_append, ← hs]
      | false =>
          rw [afterTrivia]
          split
          · rename_i hspace
            obtain ⟨skipped, hs, hsp⟩ := ih false
            refine ⟨c :: skipped, by rw [List.cons_append, ← hs], fun _ h0 d hd => ?_⟩
            rw [List.count_cons] at h0
            rcases List.mem_cons.1 hd with rfl | hd
            · exact hspace
            · exact hsp rfl (by omega) d hd
          · split
            · rename_i hdash
              -- a comment is skipped with the minus signs that start it
              obtain ⟨skipped, hs, -⟩ := ih true
              refine ⟨c :: skipped, by rw [List.cons_append, ← hs], fun _ h0 => ?_⟩
              rw [hdash.1, List.count_cons_self] at h0
              omega
            · exact ⟨[], rfl, fun _ _ d hd => absurd hd (by simp)⟩

/-- What is skipped before a token: only blanks, unless there is a minus sign in it. -/
theorem nextText_eq (glued : Bool) (cs : List Char) :
    ∃ skipped, cs = skipped ++ nextText glued cs ∧
      (skipped.count '-' = 0 → ∀ c ∈ skipped, isSpace c = true) := by
  unfold nextText
  split
  · exact ⟨[], rfl, fun _ d hd => absurd hd (by simp)⟩
  · obtain ⟨skipped, hs, hsp⟩ := afterTrivia_eq false cs
    exact ⟨skipped, hs, hsp rfl⟩

/-- The sum of a measure over tokens. -/
def tally (measure : Token → Nat) : List Token → Nat
  | [] => 0
  | t :: ts => measure t + tally measure ts

theorem tally_append (measure : Token → Nat) (ts us : List Token) :
    tally measure (ts ++ us) = tally measure ts + tally measure us := by
  induction ts with
  | nil => exact (Nat.zero_add _).symm
  | cons t ts ih =>
      rw [List.cons_append, tally, tally, ih]
      omega

/-- The minus signs of tokens. -/
def dashes (ts : List Token) : Nat := tally Token.dashes ts

/-- The double quotes that tokens can be written with. -/
def quotes (ts : List Token) : Nat := tally Token.quotes ts

/-- Every token of a text can be spelled. -/
theorem Lexes.spellable {glued : Bool} {cs : List Char} {ts : List Token} (h : Lexes glued cs ts) :
    ∀ t ∈ ts, t.Spellable := by
  induction h with
  | stop _ =>
      intro t ht
      rw [List.mem_singleton.1 ht]
      trivial
  | token hne hrec _ ih =>
      intro t ht
      rcases List.mem_cons.1 ht with rfl | ht
      · exact (spelled_of_recognise hne hrec).spellable
      · exact ih t ht

theorem dashes_cons (t : Token) (ts : List Token) : dashes (t :: ts) = t.dashes + dashes ts :=
  rfl

theorem quotes_cons (t : Token) (ts : List Token) : quotes (t :: ts) = t.quotes + quotes ts :=
  rfl

theorem dashes_append (ts us : List Token) : dashes (ts ++ us) = dashes ts + dashes us :=
  tally_append Token.dashes ts us

theorem quotes_append (ts us : List Token) : quotes (ts ++ us) = quotes ts + quotes us :=
  tally_append Token.quotes ts us

/-- **The tokens of a text have no more minus signs than the text**, from the first of them on. -/
theorem Lexes.dashes_le {glued : Bool} {cs : List Char} {ts : List Token} (h : Lexes glued cs ts) :
    dashes ts ≤ (nextText glued cs).count '-' := by
  induction h with
  | stop _ => exact Nat.zero_le _
  | @token glued cs t n ts hne hrec _ ih =>
      have hd := (spelled_of_recognise hne hrec).dashes_eq
      obtain ⟨skipped, hs, -⟩ := nextText_eq t.isName ((nextText glued cs).drop n)
      have hcount := congrArg (List.count '-') hs
      have hcut := congrArg (List.count '-') (List.take_append_drop n (nextText glued cs))
      rw [List.count_append] at hcount hcut
      rw [dashes_cons]
      omega

theorem count_nextText (glued : Bool) (cs : List Char) :
    (nextText glued cs).count '-' ≤ cs.count '-' := by
  obtain ⟨skipped, hs, -⟩ := nextText_eq glued cs
  have hcount := congrArg (List.count '-') hs
  rw [List.count_append] at hcount
  omega

/-- **If no minus sign is lost, no double quote is**: then no comment was skipped, and the text has no
more double quotes than its tokens can be written with. -/
theorem Lexes.quotes_le {glued : Bool} {cs : List Char} {ts : List Token} (h : Lexes glued cs ts)
    (heq : dashes ts = cs.count '-') : cs.countP isDoubleQuote ≤ quotes ts := by
  have hspace : ∀ {cs : List Char}, (∀ c ∈ cs, isSpace c = true) → cs.countP isDoubleQuote = 0 := by
    intro cs hcs
    exact countP_isDoubleQuote_eq_zero (fun h => foldQuote_of_class (by decide) h) hcs
  induction h with
  | @stop glued cs hne =>
      obtain ⟨skipped, hs, hsp⟩ := nextText_eq glued cs
      rw [hne, List.append_nil] at hs
      subst hs
      exact Nat.le_of_eq (hspace (hsp heq.symm))
  | @token glued cs t n ts hne hrec hrest ih =>
      obtain ⟨skipped, hs, hsp⟩ := nextText_eq glued cs
      have hspelled := spelled_of_recognise hne hrec
      have hd := hspelled.dashes_eq
      have hq := hspelled.quotes_le
      have hle := Nat.le_trans hrest.dashes_le (count_nextText _ _)
      have hcount : cs.count '-' = skipped.count '-' + (t.dashes +
          ((nextText glued cs).drop n).count '-') := by
        rw [← hd, ← List.count_append, List.take_append_drop, ← List.count_append, ← hs]
      have hquote : cs.countP isDoubleQuote = skipped.countP isDoubleQuote +
          (((nextText glued cs).take n).countP isDoubleQuote +
            ((nextText glued cs).drop n).countP isDoubleQuote) := by
        rw [← List.countP_append, List.take_append_drop, ← List.countP_append, ← hs]
      rw [dashes_cons] at heq
      rw [quotes_cons]
      -- a minus sign among what is skipped, or lost further on, would be missing in the tokens
      have h₁ := hspace (hsp (by omega))
      have h₂ := ih (by omega)
      omega

end BisayaLang
