/-
**Running a file while it is read.**

It makes no difference to a program whether its file is read as a whole first or character by character
while its tokens are found.  Only where the text has no tokens, less of it is known: what was read up to
then, which takes in all that the error concerns.

Main results:

* `BisayaLang.openStream_cases` — what opening a file comes to while it is read, whatever its bytes;
* `BisayaLang.openStream_encode` — the same for the bytes of a text;
* `BisayaLang.runStreamWith_encode` — both ways of running a file agree, whatever decoder reads it;
* `BisayaLang.runStream_agrees_with_runFile` — **both ways of running a file agree**.
-/

import BisayaLang.Proofs.Source.Decoding
import BisayaLang.Run.Stream

set_option relaxedAutoImplicit false
set_option autoImplicit false

namespace BisayaLang

/-! ### Opening a file -/

/-- What was read of a text before an error was found: a front part that takes in what the error
concerns. -/
def ReadUpTo (text whole : String) (e : LexError) : Prop :=
  (∃ rest, whole = text ++ rest) ∧ e.span.stop ≤ text.utf8ByteSize

theorem Reaches.readUpTo {w : Window} {whole : String} {e : LexError}
    (h : Reaches w whole.toList e.span.stop) : ReadUpTo w.feed.text whole e := by
  obtain ⟨rest, hrest⟩ := h.front
  refine ⟨⟨String.ofList rest, ?_⟩, ?_⟩
  · rw [← String.toList_inj, String.toList_append, String.toList_ofList]
    exact hrest.symm
  · rw [← byteLength_toList]
    exact h.stop_le

/-- What a text comes to when it is opened as a whole. -/
def openWhole (path text : String) (tokens : List Spanned) : Except Problem (Parsed × String) :=
  match parseTokens tokens with
  | .ok parsed => .ok (parsed, text)
  | .error e => .error (.rejected path text e)

/-- **What opening a file comes to while it is read**, whatever its bytes: they cannot be read, or the text
that the decoder gives has tokens and is parsed, or it has none. -/
theorem openStream_cases {d : Decoder} (path : String) {bytes : List UInt8} {text : String}
    (hg : (Feed.start (d bytes)).Gives text.toList) :
    (∃ kind, (Window.start (.start (d bytes))).scan.2.feed.failure = some kind ∧
      openStream d path bytes = .error (.unreadable kind)) ∨
    match tokenize text with
    | .ok tokens => openStream d path bytes = openWhole path text tokens
    | .error e => ∃ front, ReadUpTo front text e ∧
        openStream d path bytes = .error (.rejected path front (.ofLexError e)) := by
  unfold openStream tokenize
  cases hscan : (Window.start (.start (d bytes))).scan with
  | mk result w =>
      simp only
      cases hfailure : w.feed.failure with
      | some kind => exact .inl ⟨kind, rfl, rfl⟩
      | none =>
          right
          obtain ⟨hresult, htext⟩ := scan_start hg hscan hfailure
          rw [← hresult]
          rw [← hresult] at htext
          cases result with
          | ok tokens =>
              simp only at htext ⊢
              obtain rfl := String.toList_inj.1 htext
              rfl
          | error e => exact ⟨w.feed.text, Reaches.readUpTo htext, rfl⟩

/-- A feed of characters comes to no failure. -/
theorem Feed.Later.clean {cs : List Char} {f : Feed} (h : (Feed.start (cs.map .char)).Later f) :
    f.failure = none ∧ ∃ back : List Char, f.answers = back.map .char := by
  induction h with
  | refl => exact ⟨rfl, cs, rfl⟩
  | @pull f _ ih =>
      obtain ⟨hfailure, back, hback⟩ := ih
      unfold Feed.pull
      cases back with
      | nil =>
          rw [List.map_nil] at hback
          simp only [hback]
          exact ⟨hfailure, [], rfl⟩
      | cons c back =>
          rw [List.map_cons] at hback
          simp only [hback]
          exact ⟨hfailure, back, rfl⟩

theorem Window.later_start (feed : Feed) : feed.Later (Window.start feed).feed :=
  (later_step ⟨feed, none, none, 0, 0, 0, none⟩).trans (later_step _)

/-- Where the window stands at the end, the feed is what has become of the first one. -/
theorem Window.later_start_scan (feed : Feed) : feed.Later (Window.start feed).scan.2.feed :=
  (Window.later_start feed).trans ((Window.later_next _).trans (Window.later_scan _))

/-- The bytes of a text can be read, and have the tokens of the text. -/
theorem openStream_encode {d : Decoder} (hd : d.ReadsTexts) (path source : String) :
    match tokenize source with
    | .ok tokens => openStream d path (Utf8.encode source) = openWhole path source tokens
    | .error e => ∃ text, ReadUpTo text source e ∧
        openStream d path (Utf8.encode source) = .error (.rejected path text (.ofLexError e)) := by
  rcases openStream_cases path (.inl (hd source)) with ⟨kind, hfailure, -⟩ | hcases
  · have hlater := Window.later_start_scan (.start (d (Utf8.encode source)))
    rw [hd source] at hlater hfailure
    rw [hlater.clean.1] at hfailure
    cases hfailure
  · exact hcases

/-! ### Running a file -/

section

variable {σ : Type} [Sink σ]

theorem runFile_encode (fuel : Nat) (path source : String) (input : List UInt8) (sink : σ) :
    runFile fuel path (.ok (Utf8.encode source)) input sink =
      runSource fuel path source input sink := by
  unfold runFile File.text
  simp only [Utf8.decode?_encode, String.ofList_toList]

theorem parseProgram_of_tokens {source : String} {tokens : List Spanned}
    (h : tokenize source = .ok tokens) : parseProgram source = parseTokens tokens := by
  unfold tokenize at h
  unfold parseProgram Scan.parse
  rw [h]

theorem parseProgram_of_lexError {source : String} {e : LexError}
    (h : tokenize source = .error e) : parseProgram source = .error (.ofLexError e) := by
  unfold tokenize at h
  unfold parseProgram Scan.parse
  rw [h]

/-- Both ways of running a file agree, whatever decoder reads it. -/
theorem runStreamWith_encode {d : Decoder} (hd : d.ReadsTexts) (fuel : Nat) (path source : String)
    (input : List UInt8) (sink : σ) :
    match tokenize source with
    | .ok _ =>
        runStreamWith d fuel path (.ok (Utf8.encode source)) input sink =
          runFile fuel path (.ok (Utf8.encode source)) input sink
    | .error e =>
        runFile fuel path (.ok (Utf8.encode source)) input sink =
            .unstarted (.rejected path source (.ofLexError e)) input sink ∧
          ∃ text rest, source = text ++ rest ∧ e.span.stop ≤ text.utf8ByteSize ∧
            runStreamWith d fuel path (.ok (Utf8.encode source)) input sink =
              .unstarted (.rejected path text (.ofLexError e)) input sink := by
  have hopen := openStream_encode hd path source
  rw [runFile_encode]
  unfold runStreamWith runSource
  cases htokens : tokenize source with
  | ok tokens =>
      rw [htokens] at hopen
      simp only at hopen ⊢
      rw [hopen, parseProgram_of_tokens htokens]
      unfold openWhole
      cases parseTokens tokens <;> rfl
  | error e =>
      rw [htokens] at hopen
      obtain ⟨text, ⟨⟨rest, hrest⟩, hstop⟩, hopen⟩ := hopen
      simp only
      rw [hopen, parseProgram_of_lexError htokens]
      exact ⟨rfl, text, rest, hrest, hstop, rfl⟩

/-- **Both ways of running a file agree.**  Only the source that goes with a lexical error is not the
whole text, but what was read of it, which takes in all that the error concerns. -/
theorem runStream_agrees_with_runFile (fuel : Nat) (path source : String) (input : List UInt8)
    (sink : σ) :
    match tokenize source with
    | .ok _ =>
        runStream fuel path (.ok (Utf8.encode source)) input sink =
          runFile fuel path (.ok (Utf8.encode source)) input sink
    | .error e =>
        runFile fuel path (.ok (Utf8.encode source)) input sink =
            .unstarted (.rejected path source (.ofLexError e)) input sink ∧
          ∃ text rest, source = text ++ rest ∧ e.span.stop ≤ text.utf8ByteSize ∧
            runStream fuel path (.ok (Utf8.encode source)) input sink =
              .unstarted (.rejected path text (.ofLexError e)) input sink :=
  runStreamWith_encode Utf8.decoder_readsTexts fuel path source input sink

end

end BisayaLang
