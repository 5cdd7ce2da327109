/-
**What has not been read decides nothing.**

An input statement whose variables are declared takes one line off the input, and nothing else takes
anything off it.  So a run depends on the lines that it has read, and on no others: two runs of a program
on inputs with the same first lines go through the same states as long as they read no more than these.

Main definitions:

* `BisayaLang.Input.IsLine`, `BisayaLang.Input.TakesLine` — a line with its end, and taking one line;
* `BisayaLang.Config.readsLine`, `BisayaLang.Config.Reads` — the next step reads a line, and runs with the
  number of lines that they read;
* `BisayaLang.SameLines` — machines that differ only in what comes behind some lines of the input.

Main results:

* `BisayaLang.Config.Step.takes` — one step takes one line off the input, or nothing;
* `BisayaLang.Config.Reads.sameLines` — runs that read no more than the same lines are the same;
* `BisayaLang.input_causality` — **a run depends on the lines that it has read**.
-/

import BisayaLang.Proofs.Execution.Lockstep

set_option relaxedAutoImplicit false
set_option autoImplicit false

namespace BisayaLang

/-! ### Lines -/

namespace Input

/-- A line with its end. -/
def IsLine (line : List UInt8) : Prop := ∃ text, line = text ++ [10] ∧ 10 ∉ text

/-- One line was taken off the input: one with its end, or the last one without.  At the end of the
input this is nothing. -/
def TakesLine (before after : List UInt8) : Prop :=
  ∃ line, before = line ++ after ∧ (IsLine line ∨ after = [] ∧ 10 ∉ line)

theorem takeLine_of_isLine {line : List UInt8} (h : IsLine line) (rest : List UInt8) :
    takeLine (line ++ rest) = (line, rest) := by
  obtain ⟨text, rfl, hn⟩ := h
  induction text with
  | nil => rfl
  | cons b text ih =>
      obtain ⟨hb, ht⟩ : 10 ≠ b ∧ 10 ∉ text := by simpa using hn
      rw [List.cons_append, List.cons_append, takeLine, if_neg (Ne.symm hb), ih ht]

theorem takesLine (input : List UInt8) : TakesLine input (takeLine input).2 := by
  refine ⟨(takeLine input).1, (takeLine_append input).symm, ?_⟩
  induction input with
  | nil => exact .inr ⟨rfl, by simp [takeLine]⟩
  | cons b input ih =>
      by_cases hb : b = 10
      · rw [takeLine, if_pos hb]
        exact .inl ⟨[], by rw [hb]; rfl, by simp⟩
      · rw [takeLine, if_neg hb]
        rcases ih with ⟨text, htext, hn⟩ | ⟨hrest, hn⟩
        · exact .inl ⟨b :: text, by simp [htext], by simp [hn, Ne.symm hb]⟩
        · exact .inr ⟨hrest, by simp [hn, Ne.symm hb]⟩

end Input

/-! ### Steps that read -/

section

variable {σ α : Type}

/-- All the variables are declared. -/
def Store.declares (s : Store) (names : List Name) : Bool :=
  names.all fun x => (s.get? x.text).isSome

/-- The task reads a line: it is an input statement, and its variables are declared. -/
def Task.readsLine (s : Store) : Task → Bool
  | .statement (.input names _) => s.declares names
  | _ => false

/-- The next step reads a line. -/
def Config.readsLine : Config σ → Bool
  | .running (t :: _) m => t.readsLine m.store
  | _ => false

/-- A run in which the given number of lines is read.  A line that is read at the end of the input
counts. -/
inductive Config.Reads [Sink σ] : Nat → Config σ → Config σ → Prop
  | refl (c : Config σ) : Config.Reads 0 c c
  | still {k : Nat} {c c' c'' : Config σ} : c.readsLine = false → Config.Step c c' →
      Config.Reads k c' c'' → Config.Reads k c c''
  | line {k : Nat} {c c' c'' : Config σ} : c.readsLine = true → Config.Step c c' →
      Config.Reads k c' c'' → Config.Reads (k + 1) c c''

theorem Store.declares_cons (s : Store) (x : Name) (names : List Name) :
    s.declares (x :: names) = ((s.get? x.text).isSome && s.declares names) := rfl

/-- The types of variables are found in the store, if all of them are declared. -/
theorem typesOf_cases (names : List Name) (s : Store) :
    (s.declares names = true ∧
      ∃ typed, ∀ m : Machine σ, m.store = s → Exec.typesOf names m = .ok typed m) ∨
    (s.declares names = false ∧
      ∃ e, ∀ m : Machine σ, m.store = s → Exec.typesOf names m = .error e m) := by
  induction names with
  | nil => exact .inl ⟨rfl, [], fun m _ => rfl⟩
  | cons x names ih =>
      have htypes : ∀ m : Machine σ, m.store = s → Exec.typesOf (x :: names) m =
          EStateM.bind (Exec.ofEval (s.find x)) (fun v => EStateM.bind (Exec.typesOf names)
            fun others => pure ((x, v.type) :: others)) m := by
        rintro m rfl
        rfl
      unfold EStateM.bind Store.find at htypes
      rw [Store.declares_cons]
      cases hx : s.get? x.text with
      | none =>
          simp only [hx] at htypes
          exact .inr ⟨rfl, _, htypes⟩
      | some v =>
          simp only [hx] at htypes
          rcases ih with ⟨hdec, typed, hok⟩ | ⟨hdec, e, herr⟩
          · refine .inl ⟨hdec, (x, v.type) :: typed, fun m hm => ?_⟩
            rw [htypes m hm]
            simp only [Exec.ofEval, pure, EStateM.pure, hok m hm]
          · refine .inr ⟨hdec, e, fun m hm => ?_⟩
            rw [htypes m hm]
            simp only [Exec.ofEval, pure, EStateM.pure, herr m hm]

/-- Reading starts with a line if all variables are declared, and otherwise it fails at once. -/
theorem readTyped_cases (names : List Name) (span : Span) (s : Store) :
    (s.declares names = true ∧
      ∃ f : List (List Char) → Exec σ (List (Name × DataType) × List (List Char)),
        (∀ S fields, InTandem S (f fields) (f fields)) ∧ ∀ m : Machine σ, m.store = s →
          Exec.readTyped names span m = (Exec.readFields span >>= f) m) ∨
    (s.declares names = false ∧
      ∃ e, ∀ m : Machine σ, m.store = s → Exec.readTyped names span m = .error e m) := by
  rcases typesOf_cases (σ := σ) names s with ⟨hdec, typed, hok⟩ | ⟨hdec, e, herr⟩
  · refine .inl ⟨hdec, fun fields => if fields.length < names.length then
      Exec.fail (.insufficientInput names.length fields.length) span else return (typed, fields),
      fun S fields => ?_, fun m hm => ?_⟩
    · simp only
      split
      · exact inTandem_fail _ _
      · exact inTandem_pure _
    · show EStateM.bind (Exec.typesOf names) _ m = _
      unfold EStateM.bind
      rw [hok m hm]
  · refine .inr ⟨hdec, e, fun m hm => ?_⟩
    show EStateM.bind (Exec.typesOf names) _ m = _
    unfold EStateM.bind
    rw [herr m hm]

end

/-! ### Machines with the same first lines -/

section

variable {σ : Type} [Sink σ]

/-- The machines are the same but for what comes behind some lines of the input. -/
structure SameLines (lines : List (List UInt8)) (rest rest' : List UInt8) (m n : Machine σ) : Prop where
  store : m.store = n.store
  sink : m.sink = n.sink
  warnings : m.warnings = n.warnings
  left : m.input = lines.flatten ++ rest
  right : n.input = lines.flatten ++ rest'

variable {lines : List (List UInt8)} {rest rest' : List UInt8} {m n : Machine σ}

omit [Sink σ] in
theorem congruent_sameLines : Congruent (SameLines lines rest rest' : Machine σ → Machine σ → Prop) where
  store := SameLines.store
  setStore := fun h s => ⟨rfl, h.sink, h.warnings, h.left, h.right⟩
  warn := fun h w => ⟨h.store, h.sink, by rw [h.warnings], h.left, h.right⟩

omit [Sink σ] in
theorem inTandem_useSink (span : Span) (act : σ → Except IoKind Unit × σ) :
    InTandem (SameLines lines rest rest') (Exec.useSink span act) (Exec.useSink span act) := by
  rintro ⟨store, input, sink, warnings⟩ ⟨store', input', sink', warnings'⟩ h
  obtain rfl : sink = sink' := h.sink
  unfold Exec.useSink
  simp only
  generalize act sink = r
  obtain ⟨kind | _, sink'⟩ := r
  · exact .error ⟨h.store, rfl, h.warnings, h.left, h.right⟩
  · exact .ok ⟨h.store, rfl, h.warnings, h.left, h.right⟩

omit [Sink σ] in
/-- Nothing is read where a variable is not declared. -/
theorem SameLines.readTyped_undeclared (h : SameLines lines rest rest' m n) {names : List Name}
    (hdec : m.store.declares names = false) (span : Span) :
    Agree (SameLines lines rest rest') (Exec.readTyped names span m)
      (Exec.readTyped names span n) := by
  rcases readTyped_cases names span m.store with ⟨hdec', -⟩ | ⟨-, e, herr⟩
  · rw [hdec] at hdec'
    cases hdec'
  · rw [herr m rfl, herr n h.store.symm]
    exact .error h

omit [Sink σ] in
/-- The same line is read where all variables are declared. -/
theorem SameLines.readTyped_declared {line : List UInt8}
    (h : SameLines (line :: lines) rest rest' m n) (hline : Input.IsLine line) {names : List Name}
    (hdec : m.store.declares names = true) (span : Span) :
    Agree (SameLines lines rest rest') (Exec.readTyped names span m)
      (Exec.readTyped names span n) := by
  rcases readTyped_cases names span m.store with ⟨-, f, hf, hok⟩ | ⟨hdec', -⟩
  · have hleft : Input.takeLine m.input = (line, lines.flatten ++ rest) := by
      rw [h.left, List.flatten_cons, List.append_assoc, Input.takeLine_of_isLine hline]
    have hright : Input.takeLine n.input = (line, lines.flatten ++ rest') := by
      rw [h.right, List.flatten_cons, List.append_assoc, Input.takeLine_of_isLine hline]
    rw [hok m rfl, hok n h.store.symm]
    refine (agree_readFields span ?_ ?_).bind (hf _)
    · rw [hleft, hright]
    · exact ⟨h.store, h.sink, h.warnings, by rw [hleft], by rw [hright]⟩
  · rw [hdec] at hdec'
    cases hdec'

/-- A step that reads nothing. -/
theorem SameLines.step (h : SameLines lines rest rest' m n) {t : Task}
    (ht : t.readsLine m.store = false) :
    Agree (SameLines lines rest rest') (t.step m) (t.step n) := by
  cases hworld : t.usesWorld with
  | false => exact inTandem_task congruent_sameLines hworld m n h
  | true =>
      unfold Task.usesWorld at hworld
      split at hworld
      · rename_i items span
        refine (inTandem_printItems congruent_sameLines.store (fun line span => ?_) items span "" m n
          h).bind fun _ => inTandem_pure _
        exact inTandem_useSink span _
      · exact (h.readTyped_undeclared ht _).bind fun _ => inTandem_pure _
      · exact (inTandem_useSink _ _ m n h).bind fun _ => inTandem_pure _
      · cases hworld

/-- A step that reads a line. -/
theorem SameLines.step_line {line : List UInt8} (h : SameLines (line :: lines) rest rest' m n)
    (hline : Input.IsLine line) {t : Task} (ht : t.readsLine m.store = true) :
    Agree (SameLines lines rest rest') (t.step m) (t.step n) := by
  unfold Task.readsLine at ht
  split at ht
  · exact (h.readTyped_declared hline ht _).bind fun _ => inTandem_pure _
  · cases ht

/-- A step that reads a line takes it off the input, whatever comes of it. -/
theorem Task.input_of_readsLine {t : Task} (ht : t.readsLine m.store = true) :
    (machineOf (t.step m)).input = (Input.takeLine m.input).2 := by
  unfold Task.readsLine at ht
  split at ht
  · rename_i names span
    rcases readTyped_cases names span m.store with ⟨-, f, hf, hok⟩ | ⟨hdec, -⟩
    · have hfields : Agree (Itself fun m' => m'.input = (Input.takeLine m.input).2)
          (Exec.readFields span m) (Exec.readFields span m) := agree_readFields span rfl ⟨rfl, rfl⟩
      have htyped := hfields.bind (hf _)
      rw [← hok m rfl] at htyped
      exact (htyped.bind fun x => inTandem_pure [Task.takeFields x.1 x.2]).machines.2
    · rw [ht] at hdec
      cases hdec
  · cases ht

/-- **One step takes one line off the input**, or nothing. -/
theorem Config.Step.takes {c c' : Config σ} (h : Config.Step c c') :
    if c.readsLine then Input.TakesLine c.machine.input c'.machine.input
    else c'.machine.input = c.machine.input := by
  obtain ⟨t, ts, m, rfl⟩ := h.task
  have hleft : c'.machine = machineOf (t.step m) := by
    cases h with
    | proceed hs => rw [hs]; rfl
    | halt hs => rw [hs]; rfl
  rw [hleft]
  cases hread : t.readsLine m.store with
  | false =>
      have hself : SameLines [] m.input m.input m m := ⟨rfl, rfl, rfl, rfl, rfl⟩
      rw [show (Config.running (t :: ts) m).readsLine = false from hread, if_neg (by simp)]
      exact (hself.step hread).machines.left
  | true =>
      rw [show (Config.running (t :: ts) m).readsLine = true from hread, if_pos rfl]
      rw [Task.input_of_readsLine hread]
      exact Input.takesLine m.input

/-! ### Runs -/

/-- The states are the same but for what comes behind some lines of the input. -/
inductive Config.SameLines (lines : List (List UInt8)) (rest rest' : List UInt8) :
    Config σ → Config σ → Prop
  | running {ts : List Task} {m n : Machine σ} : BisayaLang.SameLines lines rest rest' m n →
      Config.SameLines lines rest rest' (.running ts m) (.running ts n)
  | stopped {e : Halt} {m n : Machine σ} : BisayaLang.SameLines lines rest rest' m n →
      Config.SameLines lines rest rest' (.stopped e m) (.stopped e n)

/-- Steps of the same task that come to the same end. -/
theorem Config.Step.of_agree {t : Task} {ts : List Task} {c : Config σ}
    (hs : Config.Step (.running (t :: ts) m) c)
    (h : Agree (BisayaLang.SameLines lines rest rest') (t.step m) (t.step n)) :
    ∃ d, Config.Step (.running (t :: ts) n) d ∧ Config.SameLines lines rest rest' c d := by
  cases hs with
  | proceed hstep =>
      rw [hstep] at h
      generalize hn : t.step n = r at h
      cases h with
      | ok h => exact ⟨_, .proceed hn, .running h⟩
  | halt hstep =>
      rw [hstep] at h
      generalize hn : t.step n = r at h
      cases h with
      | error h => exact ⟨_, .halt hn, .stopped h⟩

/-- **Runs that read no more than the same lines are the same.** -/
theorem Config.Reads.sameLines {k : Nat} {c c' : Config σ} (h : Config.Reads k c c') :
    ∀ {lines : List (List UInt8)} {d : Config σ}, Config.SameLines lines rest rest' c d →
      (∀ line ∈ lines, Input.IsLine line) → k ≤ lines.length →
      ∃ d', Config.Reads k d d' ∧ Config.SameLines (lines.drop k) rest rest' c' d' := by
  induction h with
  | refl c =>
      intro lines d hcd _ _
      exact ⟨d, .refl d, hcd⟩
  | still hread hs _ ih =>
      intro lines d hcd hlines hk
      obtain ⟨t, ts, m, rfl⟩ := hs.task
      cases hcd with
      | @running _ _ n hmn =>
          obtain ⟨d', hs', hcd'⟩ := hs.of_agree (hmn.step hread)
          obtain ⟨d'', hr, hend⟩ := ih hcd' hlines hk
          refine ⟨d'', .still ?_ hs' hr, hend⟩
          show t.readsLine n.store = false
          rw [← hmn.store]
          exact hread
  | line hread hs _ ih =>
      intro lines d hcd hlines hk
      obtain ⟨t, ts, m, rfl⟩ := hs.task
      cases lines with
      | nil => exact absurd hk (by simp)
      | cons l lines =>
          cases hcd with
          | @running _ _ n hmn =>
              -- the line is the same for both
              obtain ⟨d', hs', hcd'⟩ := hs.of_agree (hmn.step_line (hlines l (.head _)) hread)
              obtain ⟨d'', hr, hend⟩ := ih hcd' (fun l' hl => hlines l' (.tail _ hl))
                (Nat.le_of_succ_le_succ hk)
              refine ⟨d'', .line ?_ hs' hr, hend⟩
              show t.readsLine n.store = true
              rw [← hmn.store]
              exact hread

theorem Config.Reads.trans {j k : Nat} {c c' c'' : Config σ} (h : Config.Reads j c c')
    (h' : Config.Reads k c' c'') : Config.Reads (j + k) c c'' := by
  induction h with
  | refl _ =>
      rw [Nat.zero_add]
      exact h'
  | still hread hs _ ih => exact .still hread hs (ih h')
  | line hread hs _ ih =>
      rw [Nat.add_right_comm]
      exact .line hread hs (ih h')

/-- A run with a task left can go on. -/
theorem Config.exists_step (t : Task) (ts : List Task) (m : Machine σ) :
    ∃ c, Config.Step (.running (t :: ts) m) c := by
  cases h : t.step m with
  | ok new m' => exact ⟨_, .proceed h⟩
  | error e m' => exact ⟨_, .halt h⟩

/-- Every run reads some number of lines. -/
theorem Config.Steps.reads {c c' : Config σ} (h : Config.Steps c c') : ∃ k, Config.Reads k c c' := by
  induction h with
  | refl c => exact ⟨0, .refl c⟩
  | @head c _ _ hs _ ih =>
      obtain ⟨k, hk⟩ := ih
      cases hread : c.readsLine with
      | false => exact ⟨k, .still hread hs hk⟩
      | true => exact ⟨k + 1, .line hread hs hk⟩

/-- There is one way to go on. -/
theorem Config.Step.unique {c d d' : Config σ} (h : Config.Step c d) (h' : Config.Step c d') :
    d = d' := by
  cases h with
  | proceed hs =>
      cases h' with
      | proceed hs' =>
          rw [hs] at hs'
          cases hs'
          rfl
      | halt hs' =>
          rw [hs] at hs'
          cases hs'
  | halt hs =>
      cases h' with
      | proceed hs' =>
          rw [hs] at hs'
          cases hs'
      | halt hs' =>
          rw [hs] at hs'
          cases hs'
          rfl

/-- A run that has no task left has read all that there is to read. -/
theorem Config.Reads.le_of_done {j k : Nat} {c d : Config σ} (h : Config.Reads j c d)
    (hk : Config.Reads k c (.running [] m)) : j ≤ k := by
  induction h generalizing k with
  | refl _ => exact Nat.zero_le k
  | still hread hs _ ih =>
      cases hk with
      | refl _ => cases hs
      | still _ hs' hk => exact ih (hs.unique hs' ▸ hk)
      | line hread' _ _ =>
          rw [hread] at hread'
          cases hread'
  | line hread hs _ ih =>
      cases hk with
      | refl _ => cases hs
      | still hread' _ _ =>
          rw [hread] at hread'
          cases hread'
      | line _ hs' hk => exact Nat.succ_le_succ (ih (hs.unique hs' ▸ hk))

omit [Sink σ] in
theorem Input.IsLine.ne_nil {line : List UInt8} (h : Input.IsLine line) : line ≠ [] := by
  obtain ⟨text, rfl, -⟩ := h
  simp

/-- Two runs on inputs with the same first lines go in step until a line behind them is read. -/
theorem shares_sameLines (hlines : ∀ line ∈ lines, Input.IsLine line) :
    Shares (fun m n : Machine σ => ∃ j ≤ lines.length, SameLines (lines.drop j) rest rest' m n)
      (fun t m n => t.readsLine m.store = true ∧ SameLines [] rest rest' m n) where
  store := by
    rintro m n ⟨j, -, h⟩
    exact h.store
  setStore := by
    rintro m n ⟨j, hj, h⟩ s
    exact ⟨j, hj, congruent_sameLines.setStore h s⟩
  warn := by
    rintro m n ⟨j, hj, h⟩ w
    exact ⟨j, hj, congruent_sameLines.warn h w⟩
  print := by
    rintro items span m n ⟨j, hj, h⟩
    refine .inl (Agree.mono (inTandem_printItems congruent_sameLines.store (fun line span => ?_) items
      span "" m n h) fun _ _ h => ⟨j, hj, h⟩)
    exact inTandem_useSink span _
  read := by
    rintro names span m n ⟨j, hj, h⟩
    cases hdec : m.store.declares names with
    | false => exact .inl ((h.readTyped_undeclared hdec span).mono fun _ _ h => ⟨j, hj, h⟩)
    | true =>
        rcases Nat.lt_or_eq_of_le hj with hlt | rfl
        · rw [List.drop_eq_getElem_cons hlt] at h
          refine .inl ((h.readTyped_declared (hlines _ (List.getElem_mem hlt)) hdec span).mono ?_)
          exact fun _ _ h => ⟨j + 1, hlt, h⟩
        · rw [List.drop_length] at h
          exact .inr ⟨hdec, h⟩
  flush := by
    rintro span m n ⟨j, hj, h⟩
    exact .inl ((inTandem_useSink span _ m n h).mono fun _ _ h => ⟨j, hj, h⟩)

/-! ### Programs -/

/-- The machine with the input. -/
def Machine.fed (m : Machine σ) (input : List UInt8) : Machine σ := { m with input }

/-- Only a run that has read all the lines has none of them left. -/
theorem Config.Reads.lines_le {k : Nat} {ts : List Task} {c : Config σ}
    (h : Config.Reads k (.running ts (m.fed (lines.flatten ++ rest))) c)
    (hlines : ∀ line ∈ lines, Input.IsLine line) (hc : c.machine.input = rest) :
    lines.length ≤ k := by
  rcases Nat.lt_or_ge k lines.length with hlt | hle
  · have hstart : Config.SameLines lines rest rest (.running ts (m.fed (lines.flatten ++ rest)))
        (.running ts (m.fed (lines.flatten ++ rest))) := .running ⟨rfl, rfl, rfl, rfl, rfl⟩
    obtain ⟨d, -, hcd⟩ := h.sameLines hstart hlines (Nat.le_of_lt hlt)
    have hinput : c.machine.input = (lines.drop k).flatten ++ rest := by
      cases hcd with
      | running hmn => exact hmn.left
      | stopped hmn => exact hmn.left
    rw [hc, List.drop_eq_getElem_cons hlt] at hinput
    have hnil := List.append_left_eq_self.1 hinput.symm
    exact absurd (List.append_eq_nil_iff.1 hnil).1 (hlines _ (List.getElem_mem hlt)).ne_nil
  · exact hle

/-- **A run depends on the lines that it has read.**  One step takes one line off the input if it is that
of an input statement whose variables are declared, and otherwise nothing.  A run that reads no more than
some lines comes to the same end on all inputs that start with these lines, and takes the same lines off
them.  A run that reads more of them goes through the same states up to the first line that is not one
of these. -/
theorem input_causality (fuel : Nat) (p : Program) (m : Machine σ) (lines : List (List UInt8))
    (rest rest' : List UInt8) (hlines : ∀ line ∈ lines, Input.IsLine line) :
    (∀ c c' : Config σ, Config.Step c c' →
      if c.readsLine then Input.TakesLine c.machine.input c'.machine.input
      else c'.machine.input = c.machine.input) ∧
    ((∀ k c, Config.Reads k (.running p.tasks (m.fed (lines.flatten ++ rest))) c → k ≤ lines.length) →
      Agree (fun m n => ∃ j ≤ lines.length, SameLines (lines.drop j) rest rest' m n)
        (p.exec fuel (m.fed (lines.flatten ++ rest))) (p.exec fuel (m.fed (lines.flatten ++ rest')))) ∧
    ∀ k c, k ≤ lines.length →
      Config.Reads k (.running p.tasks (m.fed (lines.flatten ++ rest))) c →
      ∃ d, Config.Reads k (.running p.tasks (m.fed (lines.flatten ++ rest'))) d ∧
        Config.SameLines (lines.drop k) rest rest' c d := by
  have hstart : SameLines lines rest rest' (m.fed (lines.flatten ++ rest))
      (m.fed (lines.flatten ++ rest')) := ⟨rfl, rfl, rfl, rfl, rfl⟩
  refine ⟨fun c c' h => h.takes, fun hfew => ?_, fun k c hk h => ?_⟩
  · have hprogram := parallel_program (@shares_sameLines σ _ lines rest rest' hlines) fuel p
    refine (hprogram.ends _ _ ⟨0, Nat.zero_le _, hstart⟩).resolve_right fun hpart => ?_
    -- the runs would part at a line that is one too many
    obtain ⟨t, us, m', n', hsteps, -, ⟨hread, hmn⟩, -, -⟩ := hpart []
    rw [List.append_nil] at hsteps
    obtain ⟨k, hk⟩ := hsteps.reads
    have hall := hk.lines_le hlines hmn.left
    obtain ⟨c, hs⟩ := Config.exists_step t us m'
    have hmore := hfew _ _ (hk.trans (.line hread hs (.refl c)))
    omega
  · exact h.sameLines (.running hstart) hlines hk

end

/-- A program that reads a line and prints it. -/
def echo : Program :=
  let line : Name := ⟨"line", .point 0⟩
  ⟨[.declaration .letra [⟨line, none⟩] (.point 0), .input [line] (.point 0),
    .print [.var line] (.point 0)], .point 0⟩

/-- The program reads one line, whatever comes behind it. -/
theorem reads_echo (rest : List UInt8) :
    Config.Reads 1 (.running echo.tasks ((Machine.start [] Buffer.unlimited).fed ([97, 10] ++ rest)))
      (.running [] ⟨⟨[("line", .text "a")], [("line", .letra)]⟩, rest, ⟨#[97, 10], none, none⟩, #[]⟩) := by
  let line : Name := ⟨"line", .point 0⟩
  let store (text : String) : Store := ⟨[("line", .text text)], [("line", .letra)]⟩
  -- decoding and writing are by well-founded recursion, which is not unfolded otherwise
  have hread : Task.step (.statement (.input [line] (.point 0)))
      ⟨store "", [97, 10] ++ rest, Buffer.unlimited, #[]⟩ =
        .ok [.takeFields [(line, .letra)] [['a']]] ⟨store "", rest, .unlimited, #[]⟩ := by
    with_unfolding_all rfl
  have hprint : Task.step (.statement (.print [.var line] (.point 0)))
      ⟨store "a", rest, Buffer.unlimited, #[]⟩ =
        .ok [] ⟨store "a", rest, ⟨#[97, 10], none, none⟩, #[]⟩ := by
    with_unfolding_all rfl
  iterate 5 refine .still rfl (.proceed (by rfl)) ?_
  refine .line rfl (.proceed hread) ?_
  iterate 3 refine .still rfl (.proceed (by rfl)) ?_
  refine .still rfl (.proceed hprint) ?_
  iterate 2 refine .still rfl (.proceed (by rfl)) ?_
  exact .refl _

theorem input_causality_echo :
    (∀ line ∈ [[97, 10]], Input.IsLine line) ∧
    Agree (fun m n => ∃ j ≤ 1, SameLines ([[97, 10]].drop j) [98] [99, 10] m n)
      (echo.exec 0 ((Machine.start [] Buffer.unlimited).fed [97, 10, 98]))
      (echo.exec 0 ((Machine.start [] Buffer.unlimited).fed [97, 10, 99, 10])) := by
  have hlines : ∀ line ∈ [[97, 10]], Input.IsLine line := by
    intro line hline
    rw [List.mem_singleton.1 hline]
    exact ⟨[97], rfl, by decide⟩
  refine ⟨hlines, ?_⟩
  have hcausal := input_causality 0 echo (.start [] Buffer.unlimited) [[97, 10]] [98] [99, 10] hlines
  exact hcausal.2.1 fun k c h => h.le_of_done (reads_echo [98])

end BisayaLang
