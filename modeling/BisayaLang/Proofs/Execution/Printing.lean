/-
**The lines of a print statement.**

A print statement collects the texts of its items, and writes what it has collected where a line breaks.
The breaks cut its items into segments.  A segment with a break behind it is written as a line, also if it
is empty; the last segment is written only if it has a text.  An item that has no text stops the
statement, and of the segment that it stands in nothing is written.

The sink is one that never fails, with a log of its calls that tells which bytes it has taken.

Main definitions:

* `BisayaLang.PrintItem.shown` — the text of an item, or the error that there is none;
* `BisayaLang.segmentTexts` — the texts of the segments;
* `BisayaLang.joinLines` — lines that go on with others;
* `BisayaLang.finishedLines`, `BisayaLang.lastLine` — the lines that are closed by a break, and the one
  behind them;
* `BisayaLang.Sink.Unfailing` — a sink that never fails;
* `BisayaLang.Wrote` — a text was written, and nothing else has changed.

Main results:

* `BisayaLang.segmentTexts_append` — the texts of items, and of more items behind them;
* `BisayaLang.wrote_writeLine` — a line is written with its end;
* `BisayaLang.printItems_run` — **what printing writes**, from any collected text on;
* `BisayaLang.shares_endsLine` — no task leaves the output in the middle of a line;
* `BisayaLang.print_finished_lines` — **what a print statement writes**, and where the output of a program
  ends.
-/

import BisayaLang.Proofs.Execution.Fields
import BisayaLang.Proofs.Execution.Sinks

set_option relaxedAutoImplicit false
set_option autoImplicit false

namespace BisayaLang

/-! ### Segments -/

namespace PrintItem

/-- What an item adds to its line, in a store. -/
def shown (s : Store) : PrintItem → Eval String
  | .text content _ => .ok content
  | .var name => do
      let v ← s.find name
      return v.value.displayAs v.type
  | .expr e => e.display s
  | .lineBreak _ => .ok ""

/-- The text of an item; where there is an error instead, nothing. -/
def textIn (s : Store) (item : PrintItem) : String := (item.shown s).toOption.getD ""

/-- The error of an item. -/
def failure? (s : Store) (item : PrintItem) : Option RuntimeError :=
  match item.shown s with
  | .ok _ => none
  | .error e => some e

/-- The item ends a line. -/
def isBreak : PrintItem → Bool
  | .lineBreak _ => true
  | _ => false

theorem failure?_eq_none {s : Store} {item : PrintItem} {text : String} (h : item.shown s = .ok text) :
    item.failure? s = none ∧ item.textIn s = text := by
  rw [failure?, textIn, h]
  exact ⟨rfl, rfl⟩

theorem failure?_eq_some {s : Store} {item : PrintItem} {e : RuntimeError}
    (h : item.shown s = .error e) : item.failure? s = some e := by
  rw [failure?, h]

end PrintItem

/-- The texts of the segments between the breaks, one more than there are breaks. -/
def segmentTexts (s : Store) (items : List PrintItem) : List String :=
  (items.splitOnP PrintItem.isBreak).map fun segment => String.join (segment.map (·.textIn s))

/-- Lines that are closed, one after the other; the last text is open. -/
def finishedLines (texts : List String) : String := String.join (texts.dropLast.map (· ++ "\n"))

/-- The last text as a line.  There is no line without any text. -/
def lastLine (texts : List String) : String :=
  let text := texts.getLastD ""
  if text.isEmpty then "" else text ++ "\n"

theorem segmentTexts_ne_nil (s : Store) (items : List PrintItem) : segmentTexts s items ≠ [] := by
  intro h
  exact List.splitOnP_ne_nil _ _ (List.map_eq_nil_iff.1 h)

theorem segmentTexts_nil (s : Store) : segmentTexts s [] = [""] := by
  rw [segmentTexts, List.splitOnP_nil]
  rfl

theorem segmentTexts_break (s : Store) (span : Span) (items : List PrintItem) :
    segmentTexts s (.lineBreak span :: items) = "" :: segmentTexts s items := by
  rw [segmentTexts, List.splitOnP_cons_eq_if_modifyHead]
  rfl

/-- An item that is no break comes into the first segment. -/
theorem segmentTexts_cons (s : Store) {item : PrintItem} (h : item.isBreak = false)
    (items : List PrintItem) :
    segmentTexts s (item :: items) = (segmentTexts s items).modifyHead (item.textIn s ++ ·) := by
  rw [segmentTexts, segmentTexts, List.splitOnP_cons_eq_if_modifyHead, h]
  cases items.splitOnP PrintItem.isBreak with
  | nil => rfl
  | cons segment segments => simp [String.join_cons]

/-- Lines that go on with others: what the last of them holds comes before the first of the others. -/
def joinLines : List String → List String → List String
  | [], back => back
  | [text], back => back.modifyHead (text ++ ·)
  | text :: next :: front, back => text :: joinLines (next :: front) back

theorem joinLines_cons (text : String) {front : List String} (h : front ≠ []) (back : List String) :
    joinLines (text :: front) back = text :: joinLines front back := by
  obtain ⟨next, front, rfl⟩ := List.exists_cons_of_ne_nil h
  rfl

theorem finishedLines_cons (text : String) {texts : List String} (h : texts ≠ []) :
    finishedLines (text :: texts) = text ++ "\n" ++ finishedLines texts := by
  rw [finishedLines, List.dropLast_cons_of_ne_nil h, List.map_cons, String.join_cons]
  rfl

theorem lastLine_cons (text : String) {texts : List String} (h : texts ≠ []) :
    lastLine (text :: texts) = lastLine texts := by
  obtain ⟨next, texts, rfl⟩ := List.exists_cons_of_ne_nil h
  rfl

theorem modifyHead_empty (texts : List String) : texts.modifyHead ("" ++ ·) = texts := by
  cases texts <;> simp

theorem modifyHead_append (line text : String) (texts : List String) :
    (texts.modifyHead (text ++ ·)).modifyHead (line ++ ·) =
      texts.modifyHead (line ++ text ++ ·) := by
  cases texts with
  | nil => rfl
  | cons first texts => simp [String.append_assoc]

theorem modifyHead_joinLines (text : String) {front : List String} (h : front ≠ [])
    (back : List String) :
    (joinLines front back).modifyHead (text ++ ·) = joinLines (front.modifyHead (text ++ ·)) back := by
  obtain ⟨first, front, rfl⟩ := List.exists_cons_of_ne_nil h
  cases front with
  | nil => exact modifyHead_append text first back
  | cons next front => rfl

/-- **The texts of items go on with the texts of the items behind them.** -/
theorem segmentTexts_append (s : Store) (items items' : List PrintItem) :
    segmentTexts s (items ++ items') = joinLines (segmentTexts s items) (segmentTexts s items') := by
  induction items with
  | nil =>
      rw [List.nil_append, segmentTexts_nil]
      exact (modifyHead_empty _).symm
  | cons item items ih =>
      have hne := segmentTexts_ne_nil s items
      cases hbreak : item.isBreak with
      | false =>
          rw [List.cons_append, segmentTexts_cons s hbreak, segmentTexts_cons s hbreak, ih,
            modifyHead_joinLines _ hne]
      | true =>
          cases item with
          | lineBreak span =>
              rw [List.cons_append, segmentTexts_break, segmentTexts_break, ih, joinLines_cons "" hne]
          | _ => cases hbreak

/-! ### Sinks that never fail -/

/-- In the states that are `good`, which the sink does not leave, no call fails: some of the bytes that
are offered are taken. -/
structure Sink.Unfailing {σ : Type} [Sink σ] (good : σ → Prop) : Prop where
  write : ∀ {s : σ} (b : UInt8) (bytes : List UInt8), good s →
    ∃ n s', Sink.write (b :: bytes) s = (.ok (n + 1), s') ∧ good s'
  flush : ∀ {s : σ}, good s → ∃ s', Sink.flush s = (.ok (), s') ∧ good s'

section

variable {σ : Type} [Sink σ] {good : σ → Prop}

/-- All bytes are taken. -/
theorem Sink.Unfailing.writeAll (h : Sink.Unfailing good) (bytes : List UInt8) {t : Tap σ}
    (ht : good t.sink) :
    ∃ t', Sink.writeAll bytes t = (.ok (), t') ∧ good t'.sink ∧ t'.taken = t.taken ++ bytes := by
  -- the induction is on the number of bytes, since a call takes any number of them
  induction hlen : bytes.length using Nat.strongRecOn generalizing bytes t with
  | ind len ih =>
      cases bytes with
      | nil =>
          rw [Sink.writeAll]
          exact ⟨t, rfl, ht, (List.append_nil _).symm⟩
      | cons b bytes =>
          obtain ⟨n, s, hwrite, hs⟩ := h.write b bytes ht
          have hlt : (bytes.drop n).length < len := by
            rw [← hlen, List.length_drop, List.length_cons]
            omega
          rw [Sink.writeAll, Tap.write_eq, hwrite]
          obtain ⟨t', hrest, ht', htaken⟩ := ih _ hlt (bytes.drop n)
            (t := ⟨s, t.calls ++ [.write (b :: bytes) (.ok (n + 1))]⟩) hs rfl
          refine ⟨t', hrest, ht', ?_⟩
          rw [htaken, Tap.taken_push]
          simp [SinkCall.taken]

theorem Sink.Unfailing.flush_tap (h : Sink.Unfailing good) {t : Tap σ} (ht : good t.sink) :
    ∃ t', Sink.flush t = (.ok (), t') ∧ good t'.sink ∧ t'.taken = t.taken := by
  obtain ⟨s, hflush, hs⟩ := h.flush ht
  refine ⟨⟨s, t.calls ++ [.flush (.ok ())]⟩, ?_, hs, ?_⟩
  · rw [Tap.flush_eq, hflush]
  · rw [Tap.taken_push]
    exact List.append_nil _

theorem Sink.Unfailing.writeLine (h : Sink.Unfailing good) (line : String) {t : Tap σ}
    (ht : good t.sink) :
    ∃ t', Sink.writeLine line t = (.ok (), t') ∧ good t'.sink ∧
      t'.taken = t.taken ++ Utf8.encode (line ++ "\n") := by
  obtain ⟨t₁, htext, ht₁, htaken₁⟩ := h.writeAll (Utf8.encode line) ht
  obtain ⟨t₂, hend, ht₂, htaken₂⟩ := h.writeAll (Utf8.encode "\n") ht₁
  obtain ⟨t₃, hflush, ht₃, htaken₃⟩ := h.flush_tap ht₂
  refine ⟨t₃, ?_, ht₃, ?_⟩
  · simp only [Sink.writeLine, Sink.writeThenFlush, htext, hend, hflush]
  · rw [htaken₃, htaken₂, htaken₁, Utf8.encode_append, List.append_assoc]

/-! ### What is written -/

/-- The text was written, to a sink that has not failed, and nothing else has changed. -/
structure Wrote (good : σ → Prop) (m : Machine (Tap σ)) (text : String) (m' : Machine (Tap σ)) :
    Prop where
  rest : SameRest m m'
  sound : good m'.sink.sink
  taken : m'.sink.taken = m.sink.taken ++ Utf8.encode text

omit [Sink σ] in
theorem Wrote.refl {m : Machine (Tap σ)} (h : good m.sink.sink) : Wrote good m "" m :=
  ⟨.refl m, h, (List.append_nil _).symm⟩

omit [Sink σ] in
theorem Wrote.trans {m m' m'' : Machine (Tap σ)} {text text' : String} (h : Wrote good m text m')
    (h' : Wrote good m' text' m'') : Wrote good m (text ++ text') m'' where
  rest := ⟨h'.rest.store.trans h.rest.store, h'.rest.input.trans h.rest.input,
    h'.rest.warnings.trans h.rest.warnings⟩
  sound := h'.sound
  taken := by rw [h'.taken, h.taken, Utf8.encode_append, List.append_assoc]

/-- **A line is written with its end.** -/
theorem wrote_writeLine (h : Sink.Unfailing good) (line : String) (span : Span)
    {m : Machine (Tap σ)} (hm : good m.sink.sink) :
    ∃ m', Exec.writeLine line span m = .ok () m' ∧ Wrote good m (line ++ "\n") m' := by
  obtain ⟨t, hwrite, ht, htaken⟩ := h.writeLine line hm
  refine ⟨⟨m.store, m.input, t, m.warnings⟩, ?_, ⟨⟨rfl, rfl, rfl⟩, ht, htaken⟩⟩
  simp only [Exec.writeLine, Exec.useSink, hwrite]

/-- **One item** that is no break adds its text to the line, or stops the statement. -/
theorem printItems_cons_run (span : Span) (line : String) {item : PrintItem}
    (h : item.isBreak = false) (items : List PrintItem) (m : Machine (Tap σ)) :
    Exec.printItems span line (item :: items) m =
      match item.shown m.store with
      | .ok text => Exec.printItems span (line ++ text) items m
      | .error e => .error (.error e) m := by
  cases item with
  | text content s => rfl
  | var name =>
      rw [Exec.printItems, eval_bind_run, PrintItem.shown]
      cases m.store.find name <;> rfl
  | expr e =>
      rw [Exec.printItems, eval_bind_run, PrintItem.shown]
      cases e.display m.store <;> rfl
  | lineBreak s => cases h

/-- What printing some items comes to, from a collected text on: all the lines are written, or those that
are closed before the first item that fails. -/
def Prints (good : σ → Prop) (m : Machine (Tap σ)) (line : String) (items : List PrintItem)
    (r : EStateM.Result Halt (Machine (Tap σ)) Unit) : Prop :=
  match items.findSome? (·.failure? m.store) with
  | none =>
      let texts := (segmentTexts m.store items).modifyHead (line ++ ·)
      ∃ m', r = .ok () m' ∧ Wrote good m (finishedLines texts ++ lastLine texts) m'
  | some e =>
      let before := items.takeWhile fun item => (item.failure? m.store).isNone
      let texts := (segmentTexts m.store before).modifyHead (line ++ ·)
      ∃ m', r = .error (.error e) m' ∧ Wrote good m (finishedLines texts) m'

omit [Sink σ] in
theorem Prints.text {m : Machine (Tap σ)} {line text : String} {item : PrintItem}
    {items : List PrintItem} {r : EStateM.Result Halt (Machine (Tap σ)) Unit}
    (hbreak : item.isBreak = false) (htext : item.shown m.store = .ok text)
    (h : Prints good m (line ++ text) items r) : Prints good m line (item :: items) r := by
  obtain ⟨hnone, heq⟩ := PrintItem.failure?_eq_none htext
  rw [Prints, List.findSome?_cons, hnone]
  rw [Prints] at h
  cases hfail : items.findSome? (·.failure? m.store) with
  | none =>
      rw [hfail] at h
      simp only [segmentTexts_cons _ hbreak, modifyHead_append, heq]
      exact h
  | some e =>
      rw [hfail] at h
      simp only [List.takeWhile_cons, hnone, Option.isNone_none, if_true,
        segmentTexts_cons _ hbreak, modifyHead_append, heq]
      exact h

omit [Sink σ] in
/-- At a break the line is written, and what follows it starts with an empty one. -/
theorem Prints.break {m m' : Machine (Tap σ)} {line : String} {span : Span} {items : List PrintItem}
    {r : EStateM.Result Halt (Machine (Tap σ)) Unit} (hline : Wrote good m (line ++ "\n") m')
    (h : Prints good m' "" items r) : Prints good m line (.lineBreak span :: items) r := by
  have hnone : (PrintItem.lineBreak span).failure? m.store = none := rfl
  rw [Prints, List.findSome?_cons, hnone]
  rw [Prints, hline.rest.store] at h
  simp only [modifyHead_empty] at h
  cases hfail : items.findSome? (·.failure? m.store) with
  | none =>
      rw [hfail] at h
      obtain ⟨m'', hr, hrest⟩ := h
      refine ⟨m'', hr, ?_⟩
      rw [segmentTexts_break, List.modifyHead_cons, String.append_empty,
        finishedLines_cons line (segmentTexts_ne_nil _ _), lastLine_cons line (segmentTexts_ne_nil _ _),
        String.append_assoc]
      exact hline.trans hrest
  | some e =>
      rw [hfail] at h
      obtain ⟨m'', hr, hrest⟩ := h
      refine ⟨m'', hr, ?_⟩
      rw [List.takeWhile_cons, hnone, Option.isNone_none, if_pos rfl, segmentTexts_break,
        List.modifyHead_cons, String.append_empty, finishedLines_cons line (segmentTexts_ne_nil _ _)]
      exact hline.trans hrest

/-- **What printing writes**, from any collected text on. -/
theorem printItems_run (h : Sink.Unfailing good) (span : Span) (line : String)
    (items : List PrintItem) {m : Machine (Tap σ)} (hm : good m.sink.sink) :
    Prints good m line items (Exec.printItems span line items m) := by
  induction items generalizing line m with
  | nil =>
      rw [Prints, List.findSome?_nil, segmentTexts_nil, List.modifyHead_cons, String.append_empty,
        Exec.printItems]
      by_cases hline : line.isEmpty = true
      · refine ⟨m, by rw [if_pos hline]; rfl, ?_⟩
        rw [lastLine, List.getLastD_cons, List.getLastD_nil, if_pos hline]
        exact .refl hm
      · obtain ⟨m', hwrite, hwrote⟩ := wrote_writeLine h line span hm
        refine ⟨m', by rw [if_neg hline, hwrite], ?_⟩
        rw [lastLine, List.getLastD_cons, List.getLastD_nil, if_neg hline]
        exact (Wrote.refl hm).trans hwrote
  | cons item items ih =>
      cases hbreak : item.isBreak with
      | false =>
          rw [printItems_cons_run span line hbreak]
          cases htext : item.shown m.store with
          | ok text => exact .text hbreak htext (ih _ hm)
          | error e =>
              -- nothing of the open segment is written
              have hfail := PrintItem.failure?_eq_some htext
              rw [Prints, List.findSome?_cons, hfail]
              refine ⟨m, rfl, ?_⟩
              have hbefore : (item :: items).takeWhile (fun item => (item.failure? m.store).isNone) =
                  [] := by
                rw [List.takeWhile_cons, hfail]
                rfl
              rw [hbefore, segmentTexts_nil]
              exact .refl hm
      | true =>
          cases item with
          | lineBreak s =>
              obtain ⟨m', hwrite, hwrote⟩ := wrote_writeLine h line s hm
              rw [Exec.printItems, run_bind_ok hwrite]
              exact .break hwrote (ih "" hwrote.sound)
          | _ => cases hbreak

/-! ### Runs of programs -/

/-- The sink has not failed, and the bytes that it has taken are none or end with a line. -/
def EndsLine (good : σ → Prop) (m : Machine (Tap σ)) : Prop :=
  good m.sink.sink ∧ (m.sink.taken = [] ∨ ∃ front, m.sink.taken = front ++ Utf8.encode "\n")

omit [Sink σ] in
theorem congruent_endsLine : Congruent (Itself (EndsLine good)) :=
  congruent_itself (fun h _ => h) fun h _ => h

theorem endsLine_writeLine (h : Sink.Unfailing good) (line : String) (span : Span) :
    InTandem (Itself (EndsLine good)) (Exec.writeLine line span) (Exec.writeLine line span) := by
  rintro _ m ⟨rfl, hm⟩
  obtain ⟨m', hwrite, hwrote⟩ := wrote_writeLine h line span hm.1
  rw [hwrite]
  refine .ok ⟨rfl, hwrote.sound, .inr ⟨m.sink.taken ++ Utf8.encode line, ?_⟩⟩
  rw [hwrote.taken, Utf8.encode_append, List.append_assoc]

/-- **No task leaves the output in the middle of a line.** -/
theorem shares_endsLine (h : Sink.Unfailing good) :
    Shares (Itself (EndsLine good)) fun _ _ _ => False where
  toCongruent := congruent_endsLine
  print := fun items span m n hmn =>
    .inl (inTandem_printItems congruent_endsLine.store (endsLine_writeLine h) items span "" m n hmn)
  read := fun names span m n hmn => by
    refine .inl (inTandem_readTyped congruent_endsLine names span ?_ m n hmn)
    rintro m _ ⟨rfl, hm⟩
    exact agree_readFields span rfl ⟨rfl, hm⟩
  flush := by
    rintro span m _ ⟨rfl, hm⟩
    obtain ⟨t, hflush, ht, htaken⟩ := h.flush_tap hm.1
    refine .inl ?_
    simp only [Exec.useSink, hflush]
    exact .ok ⟨rfl, ht, by rw [htaken]; exact hm.2⟩

/-- **A print statement writes exactly its finished lines.**  With a sink that never fails, it writes the
segments that are closed by a break, each as a line, and the last one as a line if it has a text.  If an
item fails, the error is that of the first such item, and only the lines that are closed before it are
written.  Nothing else changes.  So the output of a program, however it ends and whenever it is given up,
is empty or ends with a line. -/
theorem print_finished_lines (h : Sink.Unfailing good) :
    (∀ (items : List PrintItem) (span : Span) (m : Machine (Tap σ)), good m.sink.sink →
      match items.findSome? (·.failure? m.store) with
      | none =>
          let texts := segmentTexts m.store items
          ∃ m', Exec.print items span m = .ok () m' ∧ SameRest m m' ∧
            m'.sink.taken = m.sink.taken ++ Utf8.encode (finishedLines texts ++ lastLine texts)
      | some e =>
          let before := items.takeWhile fun item => (item.failure? m.store).isNone
          ∃ m', Exec.print items span m = .error (.error e) m' ∧ SameRest m m' ∧
            m'.sink.taken =
              m.sink.taken ++ Utf8.encode (finishedLines (segmentTexts m.store before))) ∧
    ∀ (fuel : Nat) (p : Program) (m : Machine σ), good m.sink →
      let output := (machineOf (p.exec fuel m.tapped)).sink.taken
      output = [] ∨ ∃ front, output = front ++ Utf8.encode "\n" := by
  refine ⟨fun items span m hm => ?_, fun fuel p m hm => ?_⟩
  · have hprints := printItems_run h span "" items hm
    rw [Prints] at hprints
    simp only [modifyHead_empty] at hprints
    cases hfail : items.findSome? (·.failure? m.store) with
    | none =>
        rw [hfail] at hprints
        obtain ⟨m', hrun, hwrote⟩ := hprints
        exact ⟨m', hrun, hwrote.rest, hwrote.taken⟩
    | some e =>
        rw [hfail] at hprints
        obtain ⟨m', hrun, hwrote⟩ := hprints
        exact ⟨m', hrun, hwrote.rest, hwrote.taken⟩
  · obtain ⟨c, hsteps, hc⟩ := p.passes_exec fuel m.tapped
    have hstart : EndsLine good m.tapped := ⟨hm, .inl rfl⟩
    have hend := hsteps.kept (shares_endsLine h) hstart
    rw [hc] at hend
    exact hend.2

end

/-- A buffer without limits never fails. -/
theorem Buffer.unfailing : Sink.Unfailing Buffer.Unlimited where
  write := fun {s} b bytes hs => by
    refine ⟨bytes.length, { s with bytes := s.bytes ++ (b :: bytes) }, ?_, hs.push _⟩
    show Buffer.write _ _ = _
    rw [Buffer.write, hs.room]
    rfl
  flush := fun {s} hs => ⟨s, hs.flush, hs⟩

theorem print_finished_lines_undeclared :
    ∃ m', Exec.print [.text "a" ⟨0, 1⟩, .lineBreak ⟨1, 2⟩, .text "b" ⟨2, 3⟩, .var ⟨"x", ⟨3, 4⟩⟩] ⟨0, 4⟩
        (Machine.start [] Buffer.unlimited).tapped =
          .error (.error ⟨.undefinedVariable "x", ⟨3, 4⟩⟩) m' ∧
      m'.sink.taken = Utf8.encode "a\n" := by
  obtain ⟨m', hrun, -, htaken⟩ := (print_finished_lines Buffer.unfailing).1
    [.text "a" ⟨0, 1⟩, .lineBreak ⟨1, 2⟩, .text "b" ⟨2, 3⟩, .var ⟨"x", ⟨3, 4⟩⟩] ⟨0, 4⟩
    (Machine.start [] Buffer.unlimited).tapped ⟨rfl, rfl⟩
  exact ⟨m', hrun, htaken⟩

end BisayaLang
