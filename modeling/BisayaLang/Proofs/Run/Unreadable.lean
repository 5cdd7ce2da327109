/-
**Files that are no text.**

A file whose bytes are no text is not run, whatever the part of it that is a text says, and whatever
decoder reads it.  This does not go without saying: where the bytes are no character a feed delivers
nothing, which looks like the end of the file, but asked once more it goes on with whatever the decoder
answers.  What carries the argument is that a place of the window is empty only where the failure is on
record: tokens up to the end are therefore never found without it.

A fault in the text is still told if it was found before the failure was come to.  It is then the fault of
the text before the failure, which is still to come.

Main definitions:

* `BisayaLang.Feed.FailsLater` — a feed that comes to a failure;
* `BisayaLang.Window.Full` — no place of the window is empty, unless a failure is on record.

Main results:

* `BisayaLang.Feed.before_failure` — what a feed is like before it comes to a failure;
* `BisayaLang.Window.Full.step`, `BisayaLang.Window.Full.scan_ok` — moving the window, and finding tokens up
  to the end;
* `BisayaLang.runStreamWith_of_no_text` — **a file that is no text is not run**.
-/

import BisayaLang.Proofs.Run.Streaming

set_option relaxedAutoImplicit false
set_option autoImplicit false

namespace BisayaLang

/-! ### Before the failure -/

namespace Feed

/-- The feed delivers some characters, and then it comes to a failure. -/
def FailsLater (f : Feed) : Prop :=
  ∃ cs kind later, f.answers = List.map .char cs ++ .failure kind :: later

/-- Before the failure there is always a character. -/
theorem FailsLater.pull {f : Feed} (h : f.FailsLater) (hf : f.pull.2.failure = none) :
    f.pull.1 ≠ none ∧ f.pull.2.FailsLater := by
  obtain ⟨cs, kind, later, hleft⟩ := h
  unfold Feed.pull at hf ⊢
  cases cs with
  | nil =>
      rw [List.map_nil, List.nil_append] at hleft
      simp [hleft] at hf
  | cons c cs =>
      rw [List.map_cons, List.cons_append] at hleft
      simp only [hleft]
      exact ⟨Option.some_ne_none _, cs, kind, later, rfl⟩

/-- **What a feed is like before it comes to a failure**: it has delivered the characters in front, and has
still to come to the others and to the failure. -/
theorem before_failure {cs : List Char} {kind : IoKind} {later : List Answer} {f : Feed}
    (h : (start (cs.map .char ++ .failure kind :: later)).Later f) (hf : f.failure = none) :
    ∃ front back, cs = front ++ back ∧
      f = ⟨back.map .char ++ .failure kind :: later, byteLength front, String.ofList front, none⟩ := by
  induction h with
  | refl => exact ⟨[], cs, rfl, rfl⟩
  | @pull f _ ih =>
      obtain ⟨front, back, hcs, rfl⟩ := ih (failure_pull hf)
      cases back with
      | nil => simp [Feed.pull] at hf
      | cons c back =>
          refine ⟨front ++ [c], back, by simpa using hcs, ?_⟩
          simp [Feed.pull, byteLength_append, String.ofList_append]

end Feed

/-! ### The window before the failure -/

namespace Window

/-- Unless the failure is on record, it is still to come, and no place of the window is empty. -/
structure Full (w : Window) : Prop where
  feed : w.feed.failure = none → w.feed.FailsLater
  current : w.feed.failure = none → w.current ≠ none
  ahead : w.feed.failure = none → w.ahead ≠ none

theorem current_step (w : Window) : w.step.current = w.ahead := by
  unfold step
  split <;> rfl

theorem failsLater_step {w : Window} (h : w.feed.failure = none → w.feed.FailsLater)
    (hf : w.step.feed.failure = none) : w.step.feed.FailsLater := by
  rw [step_feed] at hf ⊢
  exact ((h (Feed.failure_pull hf)).pull hf).2

/-- The place that a move of the window fills is empty at the failure only. -/
theorem ahead_step {w : Window} (h : w.feed.failure = none → w.feed.FailsLater)
    (hf : w.step.feed.failure = none) : w.step.ahead ≠ none := by
  rw [step_feed] at hf
  have hsome := ((h (Feed.failure_pull hf)).pull hf).1
  unfold step
  split
  · exact Option.some_ne_none _
  · rename_i heq
    exact absurd (by rw [heq]) hsome

/-- Moving a window whose second place is empty at the failure only. -/
theorem full_step {w : Window} (h : w.feed.failure = none → w.feed.FailsLater)
    (hahead : w.feed.failure = none → w.ahead ≠ none) : w.step.Full := by
  refine ⟨failsLater_step h, fun hf => ?_, ahead_step h⟩
  rw [current_step]
  exact hahead (failure_step hf)

theorem full_start {feed : Feed} (h : feed.FailsLater) : (start feed).Full :=
  full_step (failsLater_step fun _ => h) (ahead_step fun _ => h)

namespace Full

variable {w w' : Window}

/-- **Moving the window** leaves no place empty before the failure. -/
theorem step (h : w.Full) : w.step.Full := full_step h.feed h.ahead

theorem moved (h : w.Full) (hm : w.Moved w') : w'.Full := by
  induction hm with
  | refl => exact h
  | step _ ih => exact ih.step

theorem next (h : w.Full) : w.next.2.Full := by
  have hlexeme := h.moved (w.moved_skip.trans w.skip.moved_lexeme)
  unfold Window.next
  split <;> rename_i heq <;> rw [heq] at hlexeme
  · exact ⟨hlexeme.feed, hlexeme.current, hlexeme.ahead⟩
  · exact hlexeme

end Full

theorem symbol?_ne_eof {glued : Bool} {c : Char} {d : Option Char} {t : Token} {n : Nat}
    (h : Token.symbol? glued c d = some (t, n)) : t ≠ .eof := by
  rintro rfl
  unfold Token.symbol? at h
  split at h <;> simp at h

/-- The end is found only where the window is empty. -/
theorem current_of_eof {w w' : Window} {t : Spanned} (h : w.lexeme = (.ok t, w'))
    (ht : t.token = .eof) : w.current = none := by
  unfold lexeme at h
  split at h
  · assumption
  exfalso
  split at h
  · unfold readString at h
    simp only at h
    split at h <;> cases h
    cases ht
  split at h
  · unfold readCharacter at h
    simp only at h
    split at h
    · cases h
    split at h
    · cases h
    split at h <;> cases h
    cases ht
  split at h
  · unfold readNumber at h
    simp only at h
    split at h <;> cases h <;> cases ht
  split at h
  · cases h
    exact ofWord_ne_eof _ ht
  · unfold readSymbol at h
    split at h <;> rename_i hs <;> cases h <;> exact symbol?_ne_eof hs ht

/-- **Tokens up to the end are not found before the failure.** -/
theorem Full.scan_ok {w w' : Window} {tokens : List Spanned} (h : w.Full)
    (hscan : w.scan = (.ok tokens, w')) : w'.feed.failure ≠ none := by
  induction w using Window.scan.induct generalizing tokens w' with
  | case1 w e w₁ hnext =>
      rw [scan_of_fault hnext] at hscan
      cases hscan
  | case2 w t w₁ hnext ht =>
      rw [scan_of_next hnext, if_pos ht] at hscan
      cases hscan
      intro hf
      have hfeed : w₁.feed = w.skip.lexeme.2.feed := by
        rw [← w.next_feed, hnext]
      rw [hfeed] at hf
      have hskip := w.skip.moved_lexeme.later.failure hf
      refine (h.moved w.moved_skip).current hskip ?_
      unfold Window.next at hnext
      split at hnext <;> cases hnext
      rename_i hlexeme
      exact current_of_eof hlexeme ht
  | case3 w t w₁ hnext ht _ _ _ ih =>
      rw [scan_of_next hnext, if_neg ht] at hscan
      cases hlater : w₁.scan with
      | mk result w₂ =>
          rw [hlater] at hscan
          have hw₁ := h.next
          rw [hnext] at hw₁
          cases result with
          | error e => cases hscan
          | ok more =>
              cases hscan
              exact ih hw₁ hlater

end Window

/-! ### Opening and running such a file -/

/-- A file that comes to a failure cannot be read, or the text before the failure has a fault, which was
found before the failure was come to. -/
theorem openStream_of_failure {d : Decoder} (path : String) {bytes : List UInt8} {text : String}
    {kind : IoKind} {later : List Answer}
    (h : d bytes = text.toList.map .char ++ .failure kind :: later) :
    (∃ kind', (Window.start (.start (d bytes))).scan.2.feed.failure = some kind' ∧
      openStream d path bytes = .error (.unreadable kind')) ∨
    ∃ e front back, tokenize text = .error e ∧ text = front ++ back ∧
      openStream d path bytes = .error (.rejected path front (.ofLexError e)) ∧
      (Window.start (.start (d bytes))).scan.2.feed =
        ⟨back.toList.map .char ++ .failure kind :: later, front.utf8ByteSize, front, none⟩ := by
  have hlater := Window.later_start_scan (.start (d bytes))
  have hfull : (Window.start (.start (d bytes))).Full :=
    Window.full_start ⟨text.toList, kind, later, h⟩
  unfold openStream
  cases hscan : (Window.start (.start (d bytes))).scan with
  | mk result w =>
      rw [hscan] at hlater
      simp only at hlater ⊢
      cases hfailure : w.feed.failure with
      | some kind' => exact .inl ⟨kind', rfl, rfl⟩
      | none =>
          right
          obtain ⟨hresult, -⟩ := scan_start (.inr ⟨kind, later, h⟩) hscan hfailure
          cases result with
          | ok tokens => exact absurd hfailure (hfull.scan_ok hscan)
          | error e =>
              rw [h] at hlater
              obtain ⟨front, back, htext, hfeed⟩ := Feed.before_failure hlater hfailure
              refine ⟨e, String.ofList front, String.ofList back, hresult.symm, ?_, ?_, ?_⟩
              · rw [← String.ofList_append, ← htext, String.ofList_toList]
              · rw [hfeed]
              · rw [hfeed, String.toList_ofList, ← byteLength_toList, String.toList_ofList]

section

variable {σ : Type} [Sink σ]

theorem runStreamWith_of_problem {d : Decoder} {path : String} {bytes : List UInt8}
    {problem : Problem} (h : openStream d path bytes = .error problem) (fuel : Nat)
    (input : List UInt8) (sink : σ) :
    runStreamWith d fuel path (.ok bytes) input sink = ⟨.stopped problem, [], sink, input⟩ := by
  unfold runStreamWith
  simp only [h]
  rfl

/-- **A file that is no text is not run**, whatever the decoder answers behind the bytes that are no
character.  Nothing is written, read or remarked, and what is told is that the file cannot be read, or a
fault of the text before those bytes: then the file was read no further than into that text, and the
failure is still to come. -/
theorem runStreamWith_of_no_text {d : Decoder} (hd : d.FailsBehindTexts) (fuel : Nat)
    (path : String) (bytes : List UInt8) (input : List UInt8) (sink : σ)
    (hno : ∀ text, Utf8.encode text ≠ bytes) :
    ∃ text bad kind later problem, Utf8.BreaksOff bytes text bad ∧
      d bytes = text.toList.map .char ++ .failure kind :: later ∧
      runStreamWith d fuel path (.ok bytes) input sink = ⟨.stopped problem, [], sink, input⟩ ∧
      ((∃ kind', (Window.start (.start (d bytes))).scan.2.feed.failure = some kind' ∧
        problem = .unreadable kind') ∨
      ∃ e front back, tokenize text = .error e ∧ text = front ++ back ∧
        problem = .rejected path front (.ofLexError e) ∧
        (Window.start (.start (d bytes))).scan.2.feed =
          ⟨back.toList.map .char ++ .failure kind :: later, front.utf8ByteSize, front, none⟩) := by
  obtain ⟨bad, hbad⟩ := Utf8.breaksOff_of_no_text hno
  obtain ⟨kind, later, hanswers⟩ := hd _ _ _ hbad
  rcases openStream_of_failure path hanswers with
    ⟨kind', hfailure, hopen⟩ | ⟨e, front, back, htokens, htext, hopen, hfeed⟩
  · exact ⟨_, bad, kind, later, _, hbad, hanswers, runStreamWith_of_problem hopen ..,
      .inl ⟨kind', hfailure, rfl⟩⟩
  · exact ⟨_, bad, kind, later, _, hbad, hanswers, runStreamWith_of_problem hopen ..,
      .inr ⟨e, front, back, htokens, htext, rfl, hfeed⟩⟩

end

theorem no_text_of_decode? {bytes : List UInt8} (h : Utf8.decode? bytes = none) (text : String) :
    Utf8.encode text ≠ bytes := by
  rintro rfl
  rw [Utf8.decode?_encode] at h
  cases h

/-- A program, with a byte behind it that is no character and then more of a text.  At that byte the
program seems to be complete, and behind it the decoder of a command goes on with the rest. -/
theorem runStreamWith_of_no_text_complete :
    let bytes := Utf8.encode "SUGOD KATAPUSAN" ++ 0xFF :: Utf8.encode "\nx"
    Utf8.decoder.FailsBehindTexts ∧ (∀ text, Utf8.encode text ≠ bytes) ∧
    ∃ text bad kind later problem, Utf8.BreaksOff bytes text bad ∧
      Utf8.decoder bytes = text.toList.map .char ++ .failure kind :: later ∧
      runStreamWith Utf8.decoder 0 "path" (.ok bytes) [] Buffer.unlimited =
        ⟨.stopped problem, [], Buffer.unlimited, []⟩ ∧
      ((∃ kind', (Window.start (.start (Utf8.decoder bytes))).scan.2.feed.failure = some kind' ∧
        problem = .unreadable kind') ∨
      ∃ e front back, tokenize text = .error e ∧ text = front ++ back ∧
        problem = .rejected "path" front (.ofLexError e) ∧
        (Window.start (.start (Utf8.decoder bytes))).scan.2.feed =
          ⟨back.toList.map .char ++ .failure kind :: later, front.utf8ByteSize, front, none⟩) := by
  intro bytes
  have hno : ∀ text, Utf8.encode text ≠ bytes := no_text_of_decode? (by decide +kernel)
  exact ⟨Utf8.decoder_failsBehindTexts, hno,
    runStreamWith_of_no_text Utf8.decoder_failsBehindTexts 0 "path" bytes [] Buffer.unlimited hno⟩

end BisayaLang
