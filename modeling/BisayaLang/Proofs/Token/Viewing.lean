/-
**Reading a file through a window.**

The tokens of a file that is read character by character are those of its text.  A window over the file
*shows* the text: its two characters are the next two of the text, its offsets are the places of these
characters, and what the file has delivered is the text up to the end of the window.  Moving the window
keeps this, as long as no failure is come to, and so does reading a token; the scanner of the whole text
takes the same tokens and reports the same faults.

Main definitions:

* `BisayaLang.Feed.Gives` — what a feed delivers before it ends or comes to a failure;
* `BisayaLang.Shows` — the window stands between two parts of the text;
* `BisayaLang.InStep` — the window stands where a scanner of the text does.

Main results:

* `BisayaLang.Shows.step`, `BisayaLang.Shows.takeWhile`, `BisayaLang.Shows.skip` — moving the window;
* `BisayaLang.Shows.lexeme` — the token in the window is the one that the text starts with;
* `BisayaLang.InStep.next`, `BisayaLang.InStep.scan` — **the window finds the tokens that the scanner
  finds**.
-/

import BisayaLang.Proofs.Token.Faults
import BisayaLang.Token.Window

set_option relaxedAutoImplicit false
set_option autoImplicit false

namespace BisayaLang

open Text

/-! ### What a feed delivers -/

namespace Feed

/-- The feed delivers these characters, and then it ends or comes to a failure.  What follows a failure is
left open. -/
def Gives (f : Feed) (cs : List Char) : Prop :=
  f.answers = cs.map .char ∨ ∃ kind later, f.answers = cs.map .char ++ .failure kind :: later

/-- The second feed is what becomes of the first when it is asked again and again. -/
inductive Later (f : Feed) : Feed → Prop
  | refl : Later f f
  | pull {g : Feed} : Later f g → Later f g.pull.2

theorem Later.trans {f g k : Feed} (h : Later f g) (h' : Later g k) : Later f k := by
  induction h' with
  | refl => exact h
  | pull _ ih => exact ih.pull

/-- A failure stays known. -/
theorem failure_pull {f : Feed} (h : f.pull.2.failure = none) : f.failure = none := by
  unfold pull at h
  split at h
  · exact h
  · exact h
  · cases h
  · exact h

theorem Later.failure {f g : Feed} (h : Later f g) (hg : g.failure = none) : f.failure = none := by
  induction h with
  | refl => exact hg
  | pull _ ih => exact ih (failure_pull hg)

/-- **What asking for a character comes to**, unless it comes to a failure. -/
theorem Gives.pull_cases {f : Feed} {cs : List Char} (hg : f.Gives cs)
    (h : f.pull.2.failure = none) :
    (cs = [] ∧ f.answers = [] ∧ f.pull = (none, f)) ∨
      ∃ c cs' g, cs = c :: cs' ∧ f.pull = (some (f.offset, c), g) ∧ g.Gives cs' ∧
        g.offset = f.offset + c.utf8Size ∧ g.text.toList = f.text.toList ++ [c] := by
  unfold pull at h ⊢
  cases cs with
  | nil =>
      rcases hg with hnil | ⟨kind, later, hfail⟩
      · left
        rw [List.map_nil] at hnil
        simp [hnil]
      · rw [List.map_nil, List.nil_append] at hfail
        simp [hfail] at h
  | cons c cs =>
      right
      rcases hg with hall | ⟨kind, later, hfail⟩
      · rw [List.map_cons] at hall
        simp only [hall]
        exact ⟨c, cs, _, rfl, rfl, .inl rfl, rfl, by simp⟩
      · rw [List.map_cons, List.cons_append] at hfail
        simp only [hfail]
        exact ⟨c, cs, _, rfl, rfl, .inr ⟨kind, later, rfl⟩, rfl, by simp⟩

end Feed

/-! ### Quotes in the window -/

/-- Reading a quote as the plain one does not matter to a class that holds all quotes or none. -/
theorem class_foldQuote {p : Char → Bool}
    (hp : (['\u2018', '\u2019', '\u201c', '\u201d'].all fun c => p (foldQuote c) == p c) = true) :
    (fun c => p (foldQuote c)) = p := by
  funext c
  rcases foldQuote_cases c with h | h | h | h | h
  · rw [h]
  all_goals exact eq_of_beq (List.all_eq_true.1 hp c (by simp [h]))

theorem isDigit_foldQuote : (fun c => isDigit (foldQuote c)) = isDigit :=
  class_foldQuote (by decide)

theorem continuesName_foldQuote : (fun c => continuesName (foldQuote c)) = continuesName :=
  class_foldQuote (by decide +kernel)

theorem isSpace_foldQuote : (fun c => isSpace (foldQuote c)) = isSpace :=
  class_foldQuote (by decide)

/-- A second character that belongs to no symbol is as good as none. -/
theorem symbol?_some {glued : Bool} {c d : Char} (hd : d ∉ ['-', '+', '=', '>']) :
    Token.symbol? glued c (some d) = Token.symbol? glued c none := by
  simp only [List.mem_cons, List.not_mem_nil, or_false, not_or] at hd
  obtain ⟨h₁, h₂, h₃, h₄⟩ := hd
  unfold Token.symbol?
  split <;> simp_all

theorem symbol?_foldQuote (glued : Bool) (c : Char) (d : Option Char) :
    Token.symbol? glued c (d.map foldQuote) = Token.symbol? glued c d := by
  cases d with
  | none => rfl
  | some d =>
      rw [Option.map_some]
      rcases foldQuote_cases d with h | rfl | rfl | rfl | rfl
      · rw [h]
      all_goals rw [symbol?_some (by decide), symbol?_some (by decide)]

/-! ### The window over a text -/

/-- The window stands before `rest`, behind `past`. -/
structure Shows (w : Window) (past rest : List Char) : Prop where
  current : w.current = rest.head?.map foldQuote
  ahead : w.ahead = rest.tail.head?.map foldQuote
  offset : w.offset = byteLength past
  aheadOffset : w.aheadOffset = byteLength (past ++ rest.take 1)
  stop : w.stop = byteLength (past ++ rest.take 2)
  text : w.feed.text.toList = past ++ rest.take 2
  feedOffset : w.feed.offset = w.stop
  gives : w.feed.Gives (rest.drop 2)

namespace Window

theorem step_feed (w : Window) : w.step.feed = w.feed.pull.2 := by
  unfold step
  split <;> rename_i heq <;> rw [heq]

theorem later_step (w : Window) : w.feed.Later w.step.feed := by
  rw [step_feed]
  exact .pull .refl

theorem nameEnd_step (w : Window) : w.step.nameEnd = w.nameEnd := by
  unfold step
  split <;> rfl

/-- The second window is the first one, moved by some characters. -/
inductive Moved (w : Window) : Window → Prop
  | refl : Moved w w
  | step {w' : Window} : Moved w w' → Moved w w'.step

namespace Moved

variable {w w' w'' : Window}

theorem trans (h : Moved w w') (h' : Moved w' w'') : Moved w w'' := by
  induction h' with
  | refl => exact h
  | step _ ih => exact ih.step

theorem later (h : Moved w w') : w.feed.Later w'.feed := by
  induction h with
  | refl => exact .refl
  | @step w' _ ih => exact ih.trans w'.later_step

theorem nameEnd (h : Moved w w') : w'.nameEnd = w.nameEnd := by
  induction h with
  | refl => rfl
  | @step w' _ ih => exact w'.nameEnd_step.trans ih

end Moved

theorem moved_step (w : Window) : w.Moved w.step := .step .refl

theorem moved_takeWhile (p : Char → Bool) (w : Window) : w.Moved (w.takeWhile p).2 := by
  fun_induction takeWhile p w with
  | case1 w hc => exact .refl
  | case2 w c hc hp cs w' heq ih =>
      rw [heq] at ih
      exact w.moved_step.trans ih
  | case3 w c hc hp => exact .refl

theorem moved_skip (w : Window) : w.Moved w.skip := by
  fun_induction skip w with
  | case1 w hc => exact .refl
  | case2 w c hc hs ih => exact w.moved_step.trans ih
  | case3 w c hc hs hd ih => exact (w.moved_step.trans (moved_takeWhile ..)).trans ih
  | case4 w c hc hs hd => exact .refl

theorem failure_step {w : Window} (h : w.step.feed.failure = none) : w.feed.failure = none :=
  w.later_step.failure h

theorem failure_takeWhile {p : Char → Bool} {w w' : Window} {cs : List Char}
    (heq : w.takeWhile p = (cs, w')) (h : w'.feed.failure = none) : w.feed.failure = none := by
  have hmoved := moved_takeWhile p w
  rw [heq] at hmoved
  exact hmoved.later.failure h

theorem failure_skip {w : Window} (h : w.skip.feed.failure = none) : w.feed.failure = none :=
  w.moved_skip.later.failure h

end Window

namespace Shows

variable {w : Window} {past rest : List Char}

/-- **Moving the window by one character.** -/
theorem step (h : Shows w past rest) (hf : w.step.feed.failure = none) :
    Shows w.step (past ++ rest.take 1) rest.tail := by
  rw [Window.step_feed] at hf
  unfold Window.step
  rcases h.gives.pull_cases hf with ⟨hnil, -, heq⟩ | ⟨c, cs, g, hcons, heq, hgives, hoffset, htext⟩
  · rw [heq]
    -- the end of the file is in the window, or right behind it
    match rest, hnil, h with
    | [], _, h | [_], _, h | [_, _], _, h =>
        refine ⟨h.ahead, rfl, h.aheadOffset, ?_, ?_, ?_, h.feedOffset, h.gives⟩
        · simpa using h.stop
        · simpa using h.stop
        · simpa using h.text
  · rw [heq]
    match rest, hcons, h with
    | a :: b :: rest, hcons, h =>
        obtain rfl : rest = c :: cs := hcons
        have hw : w.feed.offset = byteLength (past ++ [a, b]) := h.feedOffset.trans h.stop
        refine ⟨h.ahead, rfl, h.aheadOffset, ?_, ?_, ?_, ?_, hgives⟩
        · rw [List.append_assoc]
          exact hw
        · rw [hw]
          simp only [byteLength_append, List.take_succ_cons, List.take_zero, List.tail_cons,
            byteLength_cons, byteLength_nil]
          omega
        · rw [htext, h.text]
          simp
        · exact hoffset

theorem step_cons {c : Char} (h : Shows w past (c :: rest)) (hf : w.step.feed.failure = none) :
    Shows w.step (past ++ [c]) rest := h.step hf

theorem current_cons {c : Char} (h : Shows w past (c :: rest)) : w.current = some (foldQuote c) :=
  h.current

theorem eq_nil (h : Shows w past rest) (hc : w.current = none) : rest = [] := by
  rw [h.current] at hc
  cases rest with
  | nil => rfl
  | cons c rest => cases hc

theorem eq_cons {d : Char} (h : Shows w past rest) (hc : w.current = some d) :
    ∃ c cs, rest = c :: cs ∧ d = foldQuote c := by
  rw [h.current] at hc
  cases rest with
  | nil => cases hc
  | cons c rest => exact ⟨c, rest, rfl, (Option.some.inj hc).symm⟩

/-- **Moving the window over the characters of a class.** -/
theorem takeWhile {p : Char → Bool} {cs : List Char} {w' : Window} (h : Shows w past rest)
    (heq : w.takeWhile p = (cs, w')) (hf : w'.feed.failure = none) :
    cs = (rest.takeWhile fun c => p (foldQuote c)).map foldQuote ∧
      Shows w' (past ++ rest.takeWhile fun c => p (foldQuote c))
        (rest.dropWhile fun c => p (foldQuote c)) := by
  obtain rfl : (w.takeWhile p).1 = cs := by rw [heq]
  obtain rfl : (w.takeWhile p).2 = w' := by rw [heq]
  clear heq
  fun_induction Window.takeWhile p w generalizing past rest with
  | case1 w hc =>
      obtain rfl := h.eq_nil hc
      refine ⟨rfl, ?_⟩
      rw [List.takeWhile_nil, List.append_nil]
      exact h
  | case2 w d hc hp cs w' heq ih =>
      obtain ⟨c, rest, rfl, rfl⟩ := h.eq_cons hc
      rw [heq] at ih
      obtain ⟨htake, hshows⟩ := ih (h.step_cons (Window.failure_takeWhile heq hf)) hf
      rw [List.takeWhile_cons_of_pos (by exact hp), List.dropWhile_cons_of_pos (by exact hp)]
      refine ⟨congrArg (foldQuote c :: ·) htake, ?_⟩
      rw [List.append_assoc] at hshows
      exact hshows
  | case3 w d hc hp =>
      obtain ⟨c, rest, rfl, rfl⟩ := h.eq_cons hc
      rw [List.takeWhile_cons_of_neg (by exact hp), List.dropWhile_cons_of_neg (by exact hp),
        List.append_nil]
      exact ⟨rfl, h⟩

end Shows

/-! ### Between two tokens -/

/-- A comment goes up to the end of its line. -/
theorem afterTrivia_comment (cs : List Char) :
    afterTrivia true cs = afterTrivia false (cs.dropWhile (· != '\n')) := by
  induction cs with
  | nil => rfl
  | cons c cs ih =>
      by_cases hc : c = '\n'
      · subst hc
        rfl
      · have hflag : (c != '\n') = true := by simpa using hc
        rw [afterTrivia, hflag, ih, List.dropWhile_cons_of_pos (by exact hflag)]

theorem nextText_false (cs : List Char) : nextText false cs = afterTrivia false cs := rfl

/-- A name that ended before a character ends no more right before the window. -/
theorem Shows.glued_eq_false {w : Window} {past rest : List Char} (h : Shows w past rest)
    (hname : ∀ n, w.nameEnd = some n → n < byteLength past) : w.glued = false := by
  unfold Window.glued
  rw [h.offset]
  cases hn : w.nameEnd with
  | none => rfl
  | some n =>
      have hlt := hname n hn
      simp only [Option.some_beq_some, beq_eq_false_iff_ne, ne_eq]
      omega

/-- **Moving the window over what stands before a token.**  A minus before a minus is left only as the
step of a loop. -/
theorem Shows.skip {w : Window} {past rest : List Char} (h : Shows w past rest)
    (hname : ∀ n, w.nameEnd = some n → n ≤ byteLength past) (hf : w.skip.feed.failure = none) :
    ∃ gap, rest = gap ++ nextText w.glued rest ∧
      Shows w.skip (past ++ gap) (nextText w.glued rest) ∧
      (['-', '-'] <+: nextText w.glued rest → w.skip.glued = decrementAhead w.glued rest) := by
  fun_induction Window.skip w generalizing past rest with
  | case1 w hc =>
      obtain rfl := h.eq_nil hc
      have hnil : nextText w.glued [] = [] := by
        unfold nextText
        split <;> rfl
      rw [hnil]
      refine ⟨[], rfl, ?_, fun hpre => absurd hpre (by simp)⟩
      rw [List.append_nil]
      exact h
  | case2 w d hc hs ih =>
      obtain ⟨c, rest, rfl, rfl⟩ := h.eq_cons hc
      have hspace : isSpace c = true := by
        rw [← congrFun isSpace_foldQuote c]
        exact hs
      have hstep := h.step_cons (Window.failure_skip hf)
      have hlater : ∀ n, w.step.nameEnd = some n → n < byteLength (past ++ [c]) := by
        intro n hn
        rw [w.nameEnd_step] at hn
        have hle := hname n hn
        have hpos := c.utf8Size_pos
        simp only [byteLength_append, byteLength_cons, byteLength_nil]
        omega
      have hdash : c ≠ '-' := by
        rintro rfl
        exact absurd hspace (by decide)
      have hdec : decrementAhead w.glued (c :: rest) = false := by
        simp [decrementAhead, hdash]
      have htext : nextText w.glued (c :: rest) = nextText w.step.glued rest := by
        rw [hstep.glued_eq_false hlater, nextText_false, nextText, hdec, afterTrivia, if_pos hspace]
        rfl
      obtain ⟨gap, hgap, hshows, hglued⟩ :=
        ih hstep (fun n hn => Nat.le_of_lt (hlater n hn)) hf
      rw [htext, hdec]
      refine ⟨c :: gap, congrArg (c :: ·) hgap, ?_, fun hpre => ?_⟩
      · rw [List.append_assoc] at hshows
        exact hshows
      · rw [hglued hpre, hstep.glued_eq_false hlater]
        rfl
  | case3 w d hc hs hd ih =>
      obtain ⟨c, rest, rfl, rfl⟩ := h.eq_cons hc
      obtain ⟨hdash, hahead, hng⟩ := hd
      obtain rfl := foldQuote_eq_dash.1 hdash
      obtain ⟨rest, rfl⟩ : ∃ rest', rest = '-' :: rest' := by
        rw [h.ahead] at hahead
        cases rest with
        | nil => cases hahead
        | cons e rest =>
            obtain rfl := foldQuote_eq_dash.1 (Option.some.inj hahead)
            exact ⟨rest, rfl⟩
      have hline := Window.failure_skip hf
      have hstep := h.step_cons (Window.failure_takeWhile rfl hline)
      obtain ⟨-, hshows⟩ := hstep.takeWhile rfl hline
      have hclass : (fun c => foldQuote c != '\n') = (· != '\n') :=
        class_foldQuote (p := (· != '\n')) (by decide)
      rw [hclass] at hshows
      generalize hw : (w.step.takeWhile (· != '\n')).2 = w' at ih hshows hf
      generalize hbody : ('-' :: rest).takeWhile (· != '\n') = body at hshows
      generalize hback : ('-' :: rest).dropWhile (· != '\n') = back at hshows
      have hsplit : '-' :: rest = body ++ back := by
        rw [← hbody, ← hback, List.takeWhile_append_dropWhile]
      have hlater : ∀ n, w'.nameEnd = some n → n < byteLength (past ++ ['-'] ++ body) := by
        intro n hn
        rw [← hw, (Window.moved_takeWhile ..).nameEnd, w.nameEnd_step] at hn
        have hle := hname n hn
        have hpos := Char.utf8Size_pos '-'
        simp only [byteLength_append, byteLength_cons, byteLength_nil]
        omega
      have htext : nextText w.glued ('-' :: '-' :: rest) = nextText w'.glued back := by
        have hcomment : afterTrivia false ('-' :: '-' :: rest) = afterTrivia true ('-' :: rest) := rfl
        rw [hng, nextText_false, hcomment, afterTrivia_comment, hback, hshows.glued_eq_false hlater,
          nextText_false]
      obtain ⟨gap, hgap, hshows', hglued⟩ :=
        ih hshows (fun n hn => Nat.le_of_lt (hlater n hn)) hf
      rw [htext]
      refine ⟨'-' :: (body ++ gap), ?_, ?_, fun hpre => ?_⟩
      · rw [List.cons_append, List.append_assoc, ← hgap, hsplit]
      · simpa using hshows'
      · rw [hglued hpre, hshows.glued_eq_false hlater, hng]
        rfl
  | case4 w d hc hs hd =>
      obtain ⟨c, rest, rfl, rfl⟩ := h.eq_cons hc
      have hspace : ¬isSpace c = true := by
        rw [← congrFun isSpace_foldQuote c]
        exact hs
      have hdashes : c = '-' → rest.head? = some '-' → w.glued = true := by
        rintro rfl hhead
        have hahead : w.ahead = some '-' := by
          rw [h.ahead, List.tail_cons, hhead]
          rfl
        cases hg : w.glued with
        | true => rfl
        | false => exact absurd ⟨rfl, hahead, hg⟩ hd
      have htext : nextText w.glued (c :: rest) = c :: rest := by
        unfold nextText
        split
        · rfl
        · rename_i hdec
          rw [afterTrivia, if_neg hspace, if_neg]
          rintro ⟨rfl, hhead⟩
          exact hdec (by simp [decrementAhead, hdashes rfl hhead, hhead])
      rw [htext]
      refine ⟨[], rfl, ?_, ?_⟩
      · rw [List.append_nil]
        exact h
      · rintro ⟨back, hback⟩
        obtain ⟨rfl, rfl⟩ := List.cons.inj hback
        have hg := hdashes rfl rfl
        rw [hg]
        rfl

/-! ### One token -/

/-- What was read in the window is what a text starts with. -/
def Agrees (past rest : List Char) (out : Except LexError Spanned × Window) : Lexeme → Prop
  | .token t n =>
      out.1 = .ok ⟨⟨byteLength past, byteLength (past ++ rest.take n)⟩, t⟩ ∧
        Shows out.2 (past ++ rest.take n) (rest.drop n)
  | .fault f reported consumed =>
      out.1 = .error ⟨f, ⟨byteLength past, byteLength (past ++ rest.take reported)⟩⟩ ∧
        Shows out.2 (past ++ rest.take consumed) (rest.drop consumed) ∧ reported ≤ consumed + 2

theorem map_foldQuote {cs : List Char} (h : ∀ c ∈ cs, foldQuote c = c) : cs.map foldQuote = cs :=
  (List.map_congr_left h).trans (List.map_id _)

namespace Shows

variable {w w' : Window} {past rest : List Char}

/-- A token ends where the window stands behind its characters. -/
theorem agrees_token {n : Nat} {t : Token} (h : Shows w past rest)
    (h' : Shows w' (past ++ rest.take n) (rest.drop n)) :
    Agrees past rest (w.token w' t) (.token t n) := by
  refine ⟨?_, h'⟩
  unfold Window.token
  rw [h.offset, h'.offset]

/-- A fault concerns the first characters before the window, and no more than the window shows then. -/
theorem agrees_fault {f : LexFault} {stop reported consumed : Nat} (h : Shows w past rest)
    (hstop : stop = byteLength (past ++ rest.take reported))
    (h' : Shows w' (past ++ rest.take consumed) (rest.drop consumed))
    (hle : reported ≤ consumed + 2) :
    Agrees past rest (w.fault f stop w') (.fault f reported consumed) := by
  refine ⟨?_, h', hle⟩
  unfold Window.fault
  rw [h.offset, hstop]

/-- The window stands behind the first characters of the text. -/
theorem of_append (front : List Char) {back : List Char} (h : Shows w (past ++ front) back) :
    Shows w (past ++ (front ++ back).take front.length) ((front ++ back).drop front.length) := by
  rw [List.take_left, List.drop_left]
  exact h

theorem readWord (h : Shows w past rest) (hf : w.readWord.2.feed.failure = none) :
    Agrees past rest w.readWord (Token.readWord rest) := by
  unfold Window.readWord Token.readWord at *
  cases heq : w.takeWhile continuesName with
  | mk letters w' =>
      rw [heq] at hf
      obtain ⟨rfl, hshows⟩ := h.takeWhile heq hf
      rw [continuesName_foldQuote] at hshows ⊢
      have hfold : (rest.takeWhile continuesName).map foldQuote = rest.takeWhile continuesName :=
        map_foldQuote fun c hc => (foldQuote_of_continuesName (mem_takeWhile hc)).1
      rw [hfold]
      refine h.agrees_token ?_
      have happ := of_append _ hshows
      rwa [List.takeWhile_append_dropWhile] at happ

/-- The digits of a number are taken as they stand. -/
theorem takeDigits {ds : List Char} (h : Shows w past rest) (heq : w.takeWhile isDigit = (ds, w'))
    (hf : w'.feed.failure = none) : ds = rest.takeWhile isDigit ∧
      Shows w' (past ++ rest.takeWhile isDigit) (rest.dropWhile isDigit) := by
  obtain ⟨rfl, hshows⟩ := h.takeWhile heq hf
  rw [isDigit_foldQuote] at hshows ⊢
  exact ⟨map_foldQuote fun c hc => (foldQuote_of_digit (mem_takeWhile hc)).1, hshows⟩

/-- The window stands before a point that belongs to a number. -/
theorem point_iff (h : Shows w past rest) :
    (w.current = some '.' ∧ w.ahead.any isDigit = true) ↔
      ∃ d cs, rest = '.' :: d :: cs ∧ isDigit d = true := by
  rw [h.current, h.ahead]
  match rest with
  | [] => simp
  | [c] => simp
  | c :: d :: cs =>
      have hpoint : foldQuote c = '.' ↔ c = '.' := by
        rcases foldQuote_cases c with hc | rfl | rfl | rfl | rfl
        · rw [hc]
        all_goals decide
      simp only [List.head?_cons, List.tail_cons, Option.map_some, Option.some.injEq, Option.any_some,
        hpoint, congrFun isDigit_foldQuote d]
      constructor
      · rintro ⟨rfl, hd⟩
        exact ⟨d, cs, rfl, hd⟩
      · rintro ⟨e, es, heq, he⟩
        cases heq
        exact ⟨rfl, he⟩

theorem readNumber (h : Shows w past rest) (hf : w.readNumber.2.feed.failure = none) :
    Agrees past rest w.readNumber (Token.readNumber rest) := by
  have hsplit := List.takeWhile_append_dropWhile (p := isDigit) (l := rest)
  unfold Window.readNumber at hf ⊢
  unfold Token.readNumber
  cases heq : w.takeWhile isDigit with
  | mk whole w₁ =>
      simp only [heq] at hf ⊢
      by_cases hpoint : w₁.current = some '.' ∧ w₁.ahead.any isDigit = true
      · rw [if_pos hpoint] at hf ⊢
        cases heq' : w₁.step.takeWhile isDigit with
        | mk fraction w₂ =>
            simp only [heq'] at hf ⊢
            have hstep := Window.failure_takeWhile heq' hf
            obtain ⟨rfl, h₁⟩ := h.takeDigits heq (Window.failure_step hstep)
            obtain ⟨d, cs, hback, hd⟩ := h₁.point_iff.1 hpoint
            rw [hback] at h₁ hsplit ⊢
            obtain ⟨rfl, h₂⟩ := (h₁.step_cons hstep).takeDigits heq' hf
            simp only [if_pos hd]
            refine h.agrees_token ?_
            have happ := of_append (rest.takeWhile isDigit ++ '.' :: (d :: cs).takeWhile isDigit)
              (by simpa using h₂)
            rw [List.append_assoc, List.cons_append, List.takeWhile_append_dropWhile, hsplit] at happ
            have hlength : (rest.takeWhile isDigit ++ '.' :: (d :: cs).takeWhile isDigit).length =
                (rest.takeWhile isDigit).length + 1 + ((d :: cs).takeWhile isDigit).length := by
              rw [List.length_append, List.length_cons]
              omega
            rwa [hlength] at happ
      · rw [if_neg hpoint] at hf ⊢
        obtain ⟨rfl, h₁⟩ := h.takeDigits heq hf
        have hagrees : Agrees past rest
            (w.token w₁ (.integer (String.ofList (rest.takeWhile isDigit))))
            (.token (.integer (String.ofList (rest.takeWhile isDigit)))
              (rest.takeWhile isDigit).length) := by
          refine h.agrees_token ?_
          have happ := of_append _ h₁
          rwa [hsplit] at happ
        split
        · rename_i d cs hback
          rw [if_neg]
          · exact hagrees
          · intro hd
            exact hpoint (h₁.point_iff.2 ⟨d, cs, hback, hd⟩)
        · exact hagrees

theorem readString {q : Char} (h : Shows w past (q :: rest))
    (hf : w.readString.2.feed.failure = none) :
    Agrees past (q :: rest) w.readString (Token.readString rest) := by
  have hsplit := List.takeWhile_append_dropWhile (p := fun c => foldQuote c != '"') (l := rest)
  unfold Window.readString at hf ⊢
  unfold Token.readString
  cases heq : w.step.takeWhile (· != '"') with
  | mk content w₁ =>
      simp only [heq] at hf ⊢
      have hfault : w₁.feed.failure = none := by
        split at hf
        · exact hf
        · exact Window.failure_step hf
      obtain ⟨rfl, h₁⟩ := (h.step_cons (Window.failure_takeWhile heq hfault)).takeWhile heq hfault
      cases hback : rest.dropWhile fun c => foldQuote c != '"' with
      | nil =>
          rw [hback] at h₁ hsplit
          rw [List.append_nil] at hsplit
          have hnone : w₁.current = none := h₁.current
          simp only [hnone] at hf ⊢
          have hall : past ++ (q :: rest).take (rest.length + 1) = past ++ [q] ++ rest := by simp
          rw [hsplit] at h₁
          refine h.agrees_fault ?_ ?_ (by omega)
          · rw [h₁.offset, hall]
          · rw [hall, List.drop_eq_nil_of_le (by simp)]
            exact h₁
      | cons q' back =>
          rw [hback] at h₁ hsplit
          simp only [h₁.current_cons] at hf ⊢
          have h₂ := h₁.step_cons hf
          refine h.agrees_token ?_
          have happ := of_append (q :: (rest.takeWhile (fun c => foldQuote c != '"') ++ [q']))
            (by simpa using h₂)
          rw [List.cons_append, List.append_assoc, List.singleton_append, hsplit] at happ
          simpa using happ

theorem readCharacter {q : Char} (h : Shows w past (q :: rest))
    (hf : w.readCharacter.2.feed.failure = none) :
    Agrees past (q :: rest) w.readCharacter (Token.readCharacter rest) := by
  unfold Window.readCharacter at hf ⊢
  simp only at hf ⊢
  have h₂ : w.step.step.feed.failure = none := by
    split at hf
    · exact hf
    · split at hf
      · exact hf
      · split at hf
        · exact Window.failure_step hf
        · exact hf
  have hone := h.step_cons (Window.failure_step h₂)
  have htwo := hone.step h₂
  match rest with
  | [] =>
      simp only [hone.current, List.head?_nil, Option.map_none]
      exact h.agrees_fault (by rw [htwo.offset]; simp) (by simpa using htwo) (by omega)
  | [c] =>
      simp only [hone.current_cons, htwo.current, List.tail_cons, List.head?_nil, Option.map_none]
      exact h.agrees_fault (by rw [htwo.offset]; simp) (by simpa using htwo) (by omega)
  | c :: d :: cs =>
      have htwo' : Shows w.step.step (past ++ [q, c]) (d :: cs) := by simpa using htwo
      simp only [hone.current_cons, htwo'.current_cons] at hf ⊢
      unfold Token.readCharacter
      by_cases hd : foldQuote d = '\''
      · simp only [if_pos hd] at hf ⊢
        refine h.agrees_token ?_
        have hthree := htwo'.step_cons hf
        simpa using hthree
      · simp only [if_neg hd]
        exact h.agrees_fault (by rw [htwo'.aheadOffset]; simp) htwo' (by omega)

theorem readSymbol {glued : Bool} {c : Char} (h : Shows w past (c :: rest))
    (hg : ['-', '-'] <+: c :: rest → w.glued = glued)
    (hf : (w.readSymbol c).2.feed.failure = none) :
    Agrees past (c :: rest) (w.readSymbol c)
      (match Token.symbol? glued c rest.head? with
      | some (t, length) => .token t length
      | none => .fault (.unrecognized c) 1 0) := by
  have hsymbol : Token.symbol? w.glued c w.ahead = Token.symbol? glued c rest.head? := by
    rw [h.ahead, symbol?_foldQuote]
    refine symbol?_glued ?_
    rintro rfl hhead
    refine hg ?_
    cases rest with
    | nil => cases hhead
    | cons d rest =>
        cases hhead
        exact ⟨rest, rfl⟩
  unfold Window.readSymbol at hf ⊢
  rw [hsymbol] at hf ⊢
  cases hs : Token.symbol? glued c rest.head? with
  | none =>
      exact h.agrees_fault h.aheadOffset (by simpa using h) (by omega)
  | some found =>
      obtain ⟨t, n⟩ := found
      rw [hs] at hf
      have hpos := Token.symbol?_pos hs
      have hle := symbol?_le hs
      by_cases hn : n = 1
      · subst hn
        exact h.agrees_token (h.step hf)
      · obtain rfl : n = 2 := by
          have hlength : rest.head?.toList.length ≤ 1 := by cases rest <;> simp
          omega
        have hstep := h.step_cons (Window.failure_step hf)
        refine h.agrees_token ?_
        have htwo := hstep.step hf
        simpa using htwo

/-- **The token in the window is the one that the text starts with.** -/
theorem lexeme {glued : Bool} (h : Shows w past rest)
    (hg : ['-', '-'] <+: rest → w.glued = glued) (hf : w.lexeme.2.feed.failure = none) :
    Agrees past rest w.lexeme (Token.recognise glued rest) := by
  unfold Window.lexeme at hf ⊢
  cases rest with
  | nil =>
      simp only [h.current, List.head?_nil, Option.map_none] at hf ⊢
      exact h.agrees_token (h.step hf)
  | cons c rest =>
      simp only [h.current_cons, Token.recognise] at hf ⊢
      by_cases h₁ : foldQuote c = '"'
      · simp only [if_pos h₁] at hf ⊢
        exact h.readString hf
      simp only [if_neg h₁] at hf ⊢
      by_cases h₂ : foldQuote c = '\''
      · simp only [if_pos h₂] at hf ⊢
        exact h.readCharacter hf
      simp only [if_neg h₂] at hf ⊢
      have hc : foldQuote c = c := by
        rcases foldQuote_cases c with hc | rfl | rfl | rfl | rfl
        · exact hc
        · exact absurd rfl h₂
        · exact absurd rfl h₂
        · exact absurd rfl h₁
        · exact absurd rfl h₁
      rw [hc] at hf ⊢
      by_cases h₃ : isDigit c = true
      · simp only [if_pos h₃] at hf ⊢
        exact h.readNumber hf
      simp only [if_neg h₃] at hf ⊢
      by_cases h₄ : startsName c = true
      · simp only [if_pos h₄] at hf ⊢
        exact h.readWord hf
      · simp only [if_neg h₄] at hf ⊢
        exact h.readSymbol hg hf

end Shows

/-! ### The whole text -/

namespace Window

theorem moved_lexeme (w : Window) : w.Moved w.lexeme.2 := by
  have hone := w.moved_step
  have htwo := hone.step
  unfold lexeme
  split
  · exact hone
  split
  · have hcontent := hone.trans (moved_takeWhile (· != '"') w.step)
    unfold readString
    simp only
    split
    · exact hcontent
    · exact hcontent.step
  split
  · unfold readCharacter
    simp only
    split
    · exact htwo
    · split
      · exact htwo
      · split
        · exact htwo.step
        · exact htwo
  split
  · have hwhole := moved_takeWhile isDigit w
    unfold readNumber
    simp only
    split
    · exact hwhole.step.trans (moved_takeWhile ..)
    · exact hwhole
  split
  · exact moved_takeWhile ..
  · unfold readSymbol
    split
    · exact hone
    · exact htwo
    · exact .refl

theorem next_feed (w : Window) : w.next.2.feed = w.skip.lexeme.2.feed := by
  unfold next
  split <;> rename_i heq <;> rw [heq]

theorem later_next (w : Window) : w.feed.Later w.next.2.feed := by
  rw [next_feed]
  exact w.moved_skip.later.trans w.skip.moved_lexeme.later

theorem scan_of_next {w w' : Window} {t : Spanned} (h : w.next = (.ok t, w')) :
    w.scan = if t.token = .eof then (.ok [t], w')
      else ((t :: ·) <$> w'.scan.1, w'.scan.2) := by
  rw [scan]
  split
  · rename_i heq
    rw [h] at heq
    cases heq
  · rename_i heq
    rw [h] at heq
    cases heq
    split <;> rfl

theorem scan_of_fault {w w' : Window} {e : LexError} (h : w.next = (.error e, w')) :
    w.scan = (.error e, w') := by
  rw [scan]
  split
  · rename_i heq
    rw [h] at heq
    cases heq
    rfl
  · rename_i heq
    rw [h] at heq
    cases heq

theorem later_scan (w : Window) : w.next.2.feed.Later w.scan.2.feed := by
  induction w using Window.scan.induct with
  | case1 w e w' hnext =>
      rw [scan_of_fault hnext, hnext]
      exact .refl
  | case2 w t w' hnext ht =>
      rw [scan_of_next hnext, if_pos ht, hnext]
      exact .refl
  | case3 w t w' hnext ht _ _ _ ih =>
      rw [scan_of_next hnext, if_neg ht, hnext]
      exact w'.later_next.trans ih

end Window

/-- The window stands behind `past`, where the scanner stands. -/
structure InStep (w : Window) (s : Scanner) (past : List Char) : Prop where
  shows : Shows w past s.rest
  offset : s.offset = byteLength past
  glued : w.glued = s.glued
  nameEnd : ∀ n, w.nameEnd = some n → n ≤ byteLength past

theorem Shows.setNameEnd {w : Window} {past rest : List Char} (h : Shows w past rest)
    (nameEnd : Option Nat) : Shows { w with nameEnd } past rest :=
  ⟨h.current, h.ahead, h.offset, h.aheadOffset, h.stop, h.text, h.feedOffset, h.gives⟩

/-- A window that a fault was found in shows all that the fault concerns. -/
structure Reaches (w : Window) (text : List Char) (stop : Nat) : Prop where
  front : w.feed.text.toList <+: text
  stop_le : stop ≤ byteLength w.feed.text.toList

theorem Shows.reaches {w : Window} {past rest : List Char} {n consumed : Nat}
    (h : Shows w (past ++ rest.take consumed) (rest.drop consumed)) (hn : n ≤ consumed + 2) :
    Reaches w (past ++ rest) (byteLength (past ++ rest.take n)) := by
  have htext : w.feed.text.toList = past ++ rest.take (consumed + 2) := by
    rw [h.text, List.append_assoc, ← List.take_add]
  refine ⟨?_, ?_⟩
  · rw [htext]
    exact (List.prefix_append_right_inj past).2 (List.take_prefix _ _)
  · rw [htext]
    refine byteLength_le_of_front ((List.prefix_append_right_inj past).2 ?_)
    exact List.take_prefix_take_left hn

/-- **Window and scanner take the same step.** -/
theorem InStep.next {w : Window} {s : Scanner} {past : List Char} (h : InStep w s past)
    (hf : w.next.2.feed.failure = none) :
    w.next.1 = s.next.1 ∧
      match s.next.1 with
      | .ok _ => ∃ past', past' ++ s.next.2.rest = past ++ s.rest ∧ InStep w.next.2 s.next.2 past'
      | .error e => Reaches w.next.2 (past ++ s.rest) e.span.stop := by
  rw [Window.next_feed] at hf
  obtain ⟨gap, hrest, -, hcases⟩ := s.next_cases
  obtain ⟨gap', hrest', hshows, hglued⟩ := h.shows.skip h.nameEnd (w.skip.moved_lexeme.later.failure hf)
  rw [h.glued] at hrest' hshows hglued
  obtain rfl : gap' = gap := List.append_cancel_right (hrest'.symm.trans hrest)
  have hagrees := hshows.lexeme hglued hf
  generalize nextText s.glued s.rest = text at hrest hcases hagrees
  have hwhole : past ++ s.rest = past ++ gap' ++ text := by rw [hrest, List.append_assoc]
  have hoffset : s.offset + byteLength gap' = byteLength (past ++ gap') := by
    rw [h.offset, byteLength_append]
  rw [hoffset] at hcases
  unfold Window.next
  cases heq : w.skip.lexeme with
  | mk result w' =>
      rw [heq] at hagrees
      cases hrec : Token.recognise (decrementAhead s.glued s.rest) text with
      | token t n =>
          rw [hrec] at hcases hagrees
          obtain ⟨stop, hstop, hnext⟩ := hcases
          obtain ⟨rfl, hshows'⟩ := hagrees
          rw [← byteLength_append] at hstop
          rw [hnext, hstop]
          refine ⟨rfl, past ++ gap' ++ text.take n, ?_, hshows'.setNameEnd _, rfl, ?_, ?_⟩
          · rw [List.append_assoc, List.take_append_drop, hwhole]
          · have hw' : w'.offset = byteLength (past ++ gap' ++ text.take n) := hshows'.offset
            unfold Window.glued
            simp only [hw']
            cases t.isName <;> simp
          · intro m hm
            simp only at hm
            split at hm
            · exact Nat.le_of_eq (Option.some.inj hm).symm
            · cases hm
      | fault f reported consumed =>
          rw [hrec] at hcases hagrees
          obtain ⟨rfl, hshows', hle⟩ := hagrees
          rw [hcases, ← byteLength_append]
          refine ⟨rfl, ?_⟩
          rw [hwhole]
          exact hshows'.reaches hle

/-- **The window finds the tokens that the scanner finds.**  If there are tokens up to the end, the
whole text has been read, and otherwise all that the fault concerns. -/
theorem InStep.scan {w : Window} {s : Scanner} {past : List Char} (h : InStep w s past)
    (hf : w.scan.2.feed.failure = none) :
    w.scan.1 = s.scan.result ∧
      match s.scan.result with
      | .ok _ => w.scan.2.feed.text.toList = past ++ s.rest
      | .error e => Reaches w.scan.2 (past ++ s.rest) e.span.stop := by
  induction s using Scanner.scan.induct generalizing w past with
  | case1 s e s' hnext =>
      obtain ⟨hsame, hcases⟩ := h.next (w.later_scan.failure hf)
      rw [hnext] at hsame hcases
      have hscan := Window.scan_of_fault (Prod.ext hsame rfl)
      rw [Scanner.scan_of_fault hnext, hscan]
      exact ⟨rfl, hcases⟩
  | case2 s t s' hnext ht =>
      obtain ⟨hsame, hcases⟩ := h.next (w.later_scan.failure hf)
      rw [hnext] at hsame hcases
      obtain ⟨past', hpast, hinStep⟩ := hcases
      obtain ⟨-, -, hrest⟩ := Scanner.next_end hnext ht
      have hscan := Window.scan_of_next (Prod.ext hsame rfl)
      rw [if_pos ht] at hscan
      rw [Scanner.scan_of_next hnext, if_pos ht, hscan]
      refine ⟨rfl, ?_⟩
      have htext := hinStep.shows.text
      simp only [hrest] at htext hpast
      rw [← hpast]
      exact htext
  | case3 s t s' hnext ht ih =>
      obtain ⟨hsame, hcases⟩ := h.next (w.later_scan.failure hf)
      rw [hnext] at hsame hcases
      obtain ⟨past', hpast, hinStep⟩ := hcases
      have hscan := Window.scan_of_next (Prod.ext hsame rfl)
      rw [if_neg ht] at hscan
      rw [hscan] at hf ⊢
      obtain ⟨hresult, hlater⟩ := ih hinStep hf
      rw [Scanner.scan_of_next hnext, if_neg ht]
      simp only at hpast hlater
      rw [hpast] at hlater
      simp only [hresult]
      unfold Scan.result at hlater ⊢
      cases herror : s'.scan.error with
      | none =>
          rw [herror] at hlater
          exact ⟨rfl, hlater⟩
      | some e =>
          rw [herror] at hlater
          exact ⟨rfl, hlater⟩

/-- The window before the characters of a file shows them. -/
theorem shows_start {answers : List Answer} {cs : List Char}
    (hg : (Feed.start answers).Gives cs)
    (hf : (Window.start (.start answers)).feed.failure = none) :
    Shows (Window.start (.start answers)) [] cs := by
  unfold Window.start at hf ⊢
  have hfirst := Window.failure_step hf
  rw [Window.step_feed] at hf hfirst
  rcases hg.pull_cases hfirst with
    ⟨rfl, -, hpull⟩ | ⟨c, cs, g, rfl, hpull, hgives, hoffset, htext⟩
  · have hstep : Window.step ⟨.start answers, none, none, 0, 0, 0, none⟩ =
        ⟨.start answers, none, none, 0, 0, 0, none⟩ := by
      unfold Window.step
      rw [hpull]
    rw [hstep, hstep]
    exact ⟨rfl, rfl, rfl, rfl, rfl, rfl, rfl, hg⟩
  · replace hoffset : g.offset = 0 + c.utf8Size := hoffset
    have hstep : Window.step ⟨.start answers, none, none, 0, 0, 0, none⟩ =
        ⟨g, none, some (foldQuote c), 0, 0, 0 + c.utf8Size, none⟩ := by
      unfold Window.step
      rw [hpull]
      rfl
    rw [hstep] at hf ⊢
    unfold Window.step
    rcases hgives.pull_cases hf with
      ⟨rfl, -, hpull'⟩ | ⟨d, cs, k, rfl, hpull', hgives', hoffset', htext'⟩
    · rw [hpull']
      exact ⟨rfl, rfl, rfl, by simp, by simp, htext, hoffset, hgives⟩
    · rw [hpull']
      refine ⟨rfl, rfl, rfl, ?_, ?_, ?_, hoffset', hgives'⟩
      · simpa using hoffset
      · simpa using hoffset
      · rw [htext', htext]
        rfl

/-- **The tokens of a file that is read character by character are those of its text.**  Unless a failure
has been come to, the text read so far reaches to the end of the file, or to the end of what the fault
concerns. -/
theorem scan_start {answers : List Answer} {cs : List Char} {w : Window}
    {result : Except LexError (List Spanned)} (hg : (Feed.start answers).Gives cs)
    (h : (Window.start (.start answers)).scan = (result, w)) (hf : w.feed.failure = none) :
    result = (Scanner.start cs).scan.result ∧
      match (Scanner.start cs).scan.result with
      | .ok _ => w.feed.text.toList = cs
      | .error e => Reaches w cs e.span.stop := by
  have hscan : (Window.start (.start answers)).scan.2.feed.failure = none := by
    rw [h]
    exact hf
  have hnone : (Window.start (.start answers)).nameEnd = none := by
    unfold Window.start
    rw [Window.nameEnd_step, Window.nameEnd_step]
  have hinStep : InStep (Window.start (.start answers)) (.start cs) [] := by
    refine ⟨shows_start hg ?_, rfl, ?_, ?_⟩
    · exact ((Window.later_next _).trans (Window.later_scan _)).failure hscan
    · unfold Window.glued
      rw [hnone]
      rfl
    · intro n hn
      rw [hnone] at hn
      cases hn
  have hboth := hinStep.scan hscan
  rw [h] at hboth
  exact hboth

end BisayaLang
