/-
**What a user is shown.**

Whatever a user is told about a program comes with the source and with spans that point into it.  The
spans come from all stages: from reading tokens, from the grammar, from running.  Here they come together:
every span that is shown marks a part of the source it is shown with, so that a snippet can be drawn from
it as it stands.  When a file is run while it is read, the source that goes with an error in the text is
only what was read so far, but the error lies within it.

Main definitions:

* `BisayaLang.Label.Valid` — a label marks a part of a source;
* `BisayaLang.Problem.Valid`, `BisayaLang.Notice.Valid` — so does all that a user is shown;
* `BisayaLang.Run.Valid` — of a whole run.

Main results:

* `BisayaLang.parse_error_fits`, `BisayaLang.warnings_mark` — errors and warnings of parsing;
* `BisayaLang.runParsed_valid` — what is reported when a program runs;
* `BisayaLang.reported_spans_valid` — **all spans that are shown mark parts of the source**, however a
  program is checked or run.
-/

import BisayaLang.Proofs.Execution.Blame
import BisayaLang.Proofs.Grammar.ErrorSpans
import BisayaLang.Proofs.Run.Streaming
import BisayaLang.Report.Diagnostic

set_option relaxedAutoImplicit false
set_option autoImplicit false

namespace BisayaLang

/-! ### Labels that mark parts of a source -/

/-- The label marks a part of the source: both ends lie between characters, in order and not behind the
end, so that cutting the span down to the source changes nothing. -/
structure Label.Valid (source : String) (l : Label) : Prop where
  fits : l.span.Fits source.toList
  stop_le : l.span.stop ≤ source.utf8ByteSize
  clamp_eq : l.span.clamp source.utf8ByteSize = l.span

/-- All labels of the diagnostic mark parts of the source it shows. -/
def Diagnostic.Valid (d : Diagnostic) : Prop :=
  ∀ loc, d.location = some loc → ∀ l ∈ loc.label :: loc.others, l.Valid loc.source

/-- The problem is shown with parts of the source, and a name that is not declared with itself. -/
structure Problem.Valid (p : Problem) : Prop where
  labels : p.diagnostic.Valid
  named : ∀ path source name span, p = .failed path source ⟨.undefinedVariable name, span⟩ →
    Slice source.toList span name.toList

/-- The notice is shown with parts of the source, and a name that is declared again with itself. -/
structure Notice.Valid (n : Notice) : Prop where
  labels : n.diagnostic.Valid
  named : ∀ name previous current span, n.warning = .redeclaration name previous current span →
    Slice n.source.toList span name.toList

/-- All that the run reports is shown with parts of the source. -/
structure Run.Valid {σ : Type} (r : Run σ) : Prop where
  problem : ∀ p, r.outcome = .stopped p → p.Valid
  notices : ∀ n ∈ r.notices, n.Valid

theorem Label.valid_of_fits {source : String} {l : Label} (h : l.span.Fits source.toList) :
    l.Valid source := by
  refine ⟨h, ?_, ?_⟩
  · rw [← byteLength_toList]
    exact h.stop_le
  · rw [← byteLength_toList]
    exact h.clamp_eq

/-- A diagnostic with one label marks what the label does. -/
theorem Diagnostic.valid_of_fits {d : Diagnostic} {path source : String} {label : Label}
    (hd : d.location = some ⟨path, source, label, []⟩) (h : label.span.Fits source.toList) :
    d.Valid := by
  intro loc hloc l hl
  rw [hd] at hloc
  cases hloc
  rw [List.mem_singleton.1 hl]
  exact Label.valid_of_fits h

/-- The end of the text can stand in for any place. -/
theorem shownSpan_fits {e : SyntaxError} {source : String} (h : e.span.Fits source.toList) :
    (e.shownSpan source).Fits source.toList := by
  have hend : (Span.point source.utf8ByteSize).Fits source.toList := by
    rw [← byteLength_toList]
    exact fits_point (charBoundary_byteLength _)
  unfold SyntaxError.shownSpan
  split
  · exact hend
  · exact hend
  · exact h

theorem rejected_valid {e : SyntaxError} {source : String} (path : String)
    (h : e.span.Fits source.toList) : (Problem.rejected path source e).Valid :=
  ⟨Diagnostic.valid_of_fits rfl (shownSpan_fits h), fun _ _ _ _ hp => (nomatch hp)⟩

theorem failed_valid {e : RuntimeError} {source : String} (path : String)
    (h : e.Marks source.toList) : (Problem.failed path source e).Valid := by
  refine ⟨Diagnostic.valid_of_fits rfl h.fits, fun _ _ _ _ hp => ?_⟩
  cases hp
  exact h

theorem unreadable_valid (kind : IoKind) : (Problem.unreadable kind).Valid :=
  ⟨fun _ hloc => (nomatch hloc), fun _ _ _ _ hp => (nomatch hp)⟩

theorem notice_valid {w : Warning} {source : String} (path : String) (h : w.Marks source.toList) :
    (Notice.mk path source w).Valid := by
  cases w with
  | redeclaration name previous current span =>
      refine ⟨Diagnostic.valid_of_fits rfl (Slice.fits h), fun _ _ _ _ hw => ?_⟩
      cases hw
      exact h
  | unreachableCode span =>
      exact ⟨Diagnostic.valid_of_fits rfl h, fun _ _ _ _ hw => (nomatch hw)⟩

theorem noticesOf_valid {ws : List Warning} {source : String} (path : String)
    (h : ∀ w ∈ ws, w.Marks source.toList) : ∀ n ∈ noticesOf path source ws, n.Valid := by
  intro n hn
  obtain ⟨w, hw, rfl⟩ := List.mem_map.1 hn
  exact notice_valid path (h w hw)

/-! ### Parsing -/

theorem lexError_fits {text : String} {e : LexError} (h : tokenize text = .error e) :
    e.span.Fits text.toList := by
  obtain ⟨before, reported, after, htext, hspan, -⟩ := tokenize_before_fault h
  exact Slice.fits ⟨before, after, htext, by rw [hspan], by rw [hspan]⟩

/-- **The error of a text that is no program marks a part of it.** -/
theorem parse_error_fits {text : String} {e : SyntaxError} (h : parseProgram text = .error e) :
    e.span.Fits text.toList := by
  cases htokens : tokenize text with
  | error e' =>
      rw [parseProgram_of_lexError htokens] at h
      cases h
      exact lexError_fits htokens
  | ok tokens =>
      rw [parseProgram_of_tokens htokens] at h
      obtain ⟨herror, rfl⟩ := Scan.result_eq_ok.1 htokens
      exact parseTokens_error_fits (tiling_of_scan (.start text.toList) herror) h

/-- The warning of a program with tokens behind it marks a part of the text. -/
theorem warnings_mark {text : String} {p : Parsed} (h : parseProgram text = .ok p) :
    ∀ w ∈ p.warnings, w.Marks text.toList := by
  obtain ⟨tokens, d, -, htiling, hp, htrailing⟩ := parseProgram_stands h
  have hd : d.Placed text.toList := by
    have hkeeps := keeps_program _ htiling.placed
    rwa [show Parse.program (.start tokens) = .ok p.program d from hp] at hkeeps
  intro w hw
  unfold Parsed.warnings at hw
  split at hw
  · rename_i span hspan
    rw [List.mem_singleton.1 hw]
    exact trailing_fits hd (htrailing ▸ hspan)
  · exact absurd hw (by simp)

/-! ### Running -/

section

variable {σ : Type}

theorem unstarted_valid {p : Problem} (h : p.Valid) (input : List UInt8) (sink : σ) :
    (Run.unstarted p input sink).Valid := by
  refine ⟨fun p' hp => ?_, fun n hn => absurd hn (by simp [Run.unstarted])⟩
  cases hp
  exact h

variable [Sink σ] (fuel : Nat) (path : String) (input : List UInt8) (sink : σ)

/-- **What is reported when a program runs** is shown with parts of the text that it was read from. -/
theorem runParsed_valid {source : String} {parsed : Parsed} (h : parseProgram source = .ok parsed) :
    (runParsed fuel path source parsed input sink).Valid := by
  have htells := Program.exec_tells (σ := σ) (anchored_of_parse h) fuel (.start input sink)
    (fun w hw => absurd hw (by simp [Machine.start]))
  have hnotices : ∀ m : Machine σ, WarnsWell source.toList m →
      ∀ n ∈ noticesOf path source (parsed.warnings ++ m.warnings.toList), n.Valid := by
    refine fun m hm => noticesOf_valid path fun w hw => ?_
    rcases List.mem_append.1 hw with hw | hw
    · exact warnings_mark h w hw
    · exact hm w hw
  unfold runParsed EStateM.run
  cases hexec : parsed.program.exec fuel (Machine.start input sink) with
  | ok _ m =>
      rw [hexec] at htells
      exact ⟨fun p hp => (nomatch hp), hnotices m htells.2⟩
  | error e m =>
      rw [hexec] at htells
      cases e with
      | error e =>
          refine ⟨fun p hp => ?_, hnotices m htells.2⟩
          cases hp
          exact failed_valid path htells.1
      | outOfFuel => exact ⟨fun p hp => (nomatch hp), hnotices m htells.2⟩

theorem runSource_valid (source : String) : (runSource fuel path source input sink).Valid := by
  unfold runSource
  cases h : parseProgram source with
  | ok parsed => exact runParsed_valid fuel path input sink h
  | error e => exact unstarted_valid (rejected_valid path (parse_error_fits h)) input sink

theorem runFile_valid (file : File) : (runFile fuel path file input sink).Valid := by
  unfold runFile
  cases file.text with
  | ok source => exact runSource_valid fuel path input sink source
  | error kind => exact unstarted_valid (unreadable_valid kind) input sink

/-- The source that goes with an error in the text is what was read of it, and the error lies within. -/
theorem ReadUpTo.fits {text whole : String} {e : LexError} (h : ReadUpTo text whole e)
    (he : tokenize whole = .error e) : e.span.Fits text.toList := by
  obtain ⟨⟨rest, rfl⟩, hstop⟩ := h
  refine (lexError_fits he).of_front ?_ ?_
  · rw [String.toList_append]
    exact List.prefix_append _ _
  · rwa [byteLength_toList]

/-- Whatever decoder reads the file, if it gives texts by their characters and fails behind them. -/
theorem runStreamWith_valid {d : Decoder} (hd : d.ReadsTexts) (hd' : d.FailsBehindTexts)
    (file : File) : (runStreamWith d fuel path file input sink).Valid := by
  unfold runStreamWith
  cases file with
  | error kind => exact unstarted_valid (unreadable_valid kind) input sink
  | ok bytes =>
      obtain ⟨text, hgives⟩ := Decoder.exists_gives hd hd' bytes
      simp only
      rcases openStream_cases path hgives with ⟨kind, -, hopen⟩ | hopen
      · rw [hopen]
        exact unstarted_valid (unreadable_valid kind) input sink
      · cases htokens : tokenize text with
        | error e =>
            rw [htokens] at hopen
            obtain ⟨front, hread, hopen⟩ := hopen
            rw [hopen]
            exact unstarted_valid (rejected_valid path (hread.fits htokens)) input sink
        | ok tokens =>
            rw [htokens] at hopen
            -- all of the text was read, and it is parsed as it would be as a whole
            have hparse := parseProgram_of_tokens htokens
            rw [show openStream d path bytes = _ from hopen]
            unfold openWhole
            cases hp : parseTokens tokens with
            | ok parsed => exact runParsed_valid fuel path input sink (hparse.trans hp)
            | error e =>
                have hfits := parse_error_fits (hparse.trans hp)
                exact unstarted_valid (rejected_valid path hfits) input sink

theorem runStream_valid (file : File) : (runStream fuel path file input sink).Valid :=
  runStreamWith_valid fuel path input sink Utf8.decoder_readsTexts Utf8.decoder_failsBehindTexts file

end

/-! ### All entry points -/

theorem checkFile_valid (path : String) (file : File) :
    (∀ p, (checkFile path file).1 = .error p → p.Valid) ∧
      ∀ n ∈ (checkFile path file).2, n.Valid := by
  unfold checkFile
  cases file.text with
  | error kind =>
      refine ⟨fun p hp => ?_, fun n hn => absurd hn (by simp)⟩
      cases hp
      exact unreadable_valid kind
  | ok source =>
      cases h : parseProgram source with
      | error e =>
          refine ⟨fun p hp => ?_, fun n hn => absurd hn (by simp [h])⟩
          simp only [h] at hp
          cases hp
          exact rejected_valid path (parse_error_fits h)
      | ok parsed =>
          simp only [h]
          exact ⟨fun p hp => (nomatch hp), noticesOf_valid path (warnings_mark h)⟩

/-- **All spans that are shown mark parts of the source.**  Whether a file is only checked, a text is
run, or a file is run as a whole or while it is read: every label of what the user is told lies in the
source that goes with it, from one boundary between characters to another, and cutting it down changes
nothing.  A name that is not declared, or declared again, is marked at the characters that spell it. -/
theorem reported_spans_valid {σ : Type} [Sink σ] (fuel : Nat) (path : String) (input : List UInt8)
    (sink : σ) :
    (∀ file : File, (∀ p, (checkFile path file).1 = .error p → p.Valid) ∧
      ∀ n ∈ (checkFile path file).2, n.Valid) ∧
    (∀ source : String, (runSource fuel path source input sink).Valid) ∧
    (∀ file : File, (runFile fuel path file input sink).Valid) ∧
    ∀ file : File, (runStream fuel path file input sink).Valid :=
  ⟨checkFile_valid path, runSource_valid fuel path input sink, runFile_valid fuel path input sink,
    runStream_valid fuel path input sink⟩

end BisayaLang
