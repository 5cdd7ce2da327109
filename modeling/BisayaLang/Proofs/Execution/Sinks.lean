/-
**Sinks that fail.**

A sink may take only some of the bytes it is offered, and each of its calls may fail.  Here the calls of
a sink are kept in a log, and a run with any sink is compared with the run with a buffer that never
fails.  The two go in step until a call fails; that call is the last one, and it stops the run before
anything else happens.

Main definitions:

* `BisayaLang.SinkCall`, `BisayaLang.Tap` — a call of a sink with its answer, and a sink with a log;
* `BisayaLang.Delivers` — what offering bytes to a sink comes to;
* `BisayaLang.Mirrors` — a machine whose sink has not failed, and one with a buffer;
* `BisayaLang.Breaks`, `BisayaLang.Endures` — a failing call has stopped a computation; until then it is
  in step with the other.

Main results:

* `BisayaLang.delivers_writeAll`, `BisayaLang.delivers_writeLine` — writing bytes, and a line;
* `BisayaLang.endures_printItems` — printing stays in step, or breaks at a failing call;
* `BisayaLang.shares_mirrors`, `BisayaLang.shares_untapped` — so does all that a program does, and keeping
  the log changes nothing of it;
* `BisayaLang.output_on_failing_sink` — **a sink that fails gets the first part of the output**, and
  nothing happens after the call that failed.
-/

import BisayaLang.Proofs.Execution.Lockstep

set_option relaxedAutoImplicit false
set_option autoImplicit false

namespace BisayaLang

/-! ### The calls of a sink -/

/-- A call of a sink, and its answer. -/
inductive SinkCall where
  | write (offered : List UInt8) (answer : Except IoKind Nat)
  | flush (answer : Except IoKind Unit)

/-- The bytes that were taken. -/
def SinkCall.taken : SinkCall → List UInt8
  | .write offered (.ok n) => offered.take n
  | _ => []

/-- The kind of failure, if the call failed.  A sink fails also when it takes none of the bytes it is
offered. -/
def SinkCall.failure? : SinkCall → Option IoKind
  | .write _ (.error kind) | .flush (.error kind) => some kind
  | .write (_ :: _) (.ok 0) => some .writeZero
  | _ => none

/-- A sink and the calls of it so far. -/
structure Tap (σ : Type) where
  sink : σ
  calls : List SinkCall

namespace Tap

variable {σ : Type}

instance [Sink σ] : Sink (Tap σ) where
  write offered t :=
    let answer := Sink.write offered t.sink
    (answer.1, ⟨answer.2, t.calls ++ [.write offered answer.1]⟩)
  flush t :=
    let answer := Sink.flush t.sink
    (answer.1, ⟨answer.2, t.calls ++ [.flush answer.1]⟩)

theorem write_eq [Sink σ] (offered : List UInt8) (t : Tap σ) :
    Sink.write offered t = ((Sink.write offered t.sink).1, ⟨(Sink.write offered t.sink).2,
      t.calls ++ [.write offered (Sink.write offered t.sink).1]⟩) := rfl

theorem flush_eq [Sink σ] (t : Tap σ) :
    Sink.flush t = ((Sink.flush t.sink).1, ⟨(Sink.flush t.sink).2,
      t.calls ++ [.flush (Sink.flush t.sink).1]⟩) := rfl

/-- All bytes that were taken. -/
def taken (t : Tap σ) : List UInt8 := t.calls.flatMap SinkCall.taken

/-- No call has failed. -/
def Sound (t : Tap σ) : Prop := ∀ c ∈ t.calls, c.failure? = none

/-- The last call has failed, and no other. -/
def FailedWith (t : Tap σ) (kind : IoKind) : Prop :=
  ∃ good bad, t.calls = good ++ [bad] ∧ (∀ c ∈ good, c.failure? = none) ∧ bad.failure? = some kind

theorem taken_push (t : Tap σ) (sink : σ) (c : SinkCall) :
    (Tap.mk sink (t.calls ++ [c])).taken = t.taken ++ c.taken := by
  simp [taken, List.flatMap_append]

theorem Sound.push {t : Tap σ} (h : t.Sound) {c : SinkCall} (hc : c.failure? = none) (sink : σ) :
    (Tap.mk sink (t.calls ++ [c])).Sound := by
  intro c' hc'
  rcases List.mem_append.1 hc' with hmem | hmem
  · exact h c' hmem
  · rw [List.mem_singleton.1 hmem]
    exact hc

theorem Sound.fail {t : Tap σ} (h : t.Sound) {c : SinkCall} {kind : IoKind}
    (hc : c.failure? = some kind) (sink : σ) : (Tap.mk sink (t.calls ++ [c])).FailedWith kind :=
  ⟨t.calls, c, rfl, h, hc⟩

/-- The call that failed is the last one. -/
theorem FailedWith.last {t : Tap σ} {kind kind' : IoKind} (h : t.FailedWith kind) {c : SinkCall}
    (hc : c ∈ t.calls) (hk : c.failure? = some kind') :
    kind' = kind ∧ ∃ good, t.calls = good ++ [c] ∧ ∀ c ∈ good, c.failure? = none := by
  obtain ⟨good, bad, hcalls, hgood, hbad⟩ := h
  rw [hcalls] at hc
  rcases List.mem_append.1 hc with hmem | hmem
  · rw [hgood c hmem] at hk
    cases hk
  · obtain rfl := List.mem_singleton.1 hmem
    exact ⟨Option.some.inj (hk.symm.trans hbad), good, hcalls, hgood⟩

end Tap

/-! ### Offering bytes -/

section

variable {σ : Type} [Sink σ]

/-- What offering bytes to a sink comes to: all of them were taken, or a call has failed and only some
were, from the first on. -/
def Delivers (bytes : List UInt8) (t : Tap σ) : Except IoKind Unit × Tap σ → Prop
  | (.ok _, t') => t'.Sound ∧ t'.taken = t.taken ++ bytes
  | (.error kind, t') => t'.FailedWith kind ∧ t'.taken <+: t.taken ++ bytes

omit [Sink σ] in
/-- The bytes that were taken before count. -/
theorem Delivers.after {bytes rest : List UInt8} {t t' : Tap σ} {r : Except IoKind Unit × Tap σ}
    (h : Delivers rest t' r) (ht : t'.taken ++ rest = t.taken ++ bytes) : Delivers bytes t r := by
  obtain ⟨_ | _, t''⟩ := r
  · exact ⟨h.1, ht ▸ h.2⟩
  · exact ⟨h.1, ht ▸ h.2⟩

/-- **Writing bytes** offers what is left until all is taken or a call fails. -/
theorem delivers_writeAll (bytes : List UInt8) {t : Tap σ} (h : t.Sound) :
    Delivers bytes t (Sink.writeAll bytes t) := by
  -- the induction is on the number of bytes, since a call takes any number of them
  induction hlen : bytes.length using Nat.strongRecOn generalizing bytes t with
  | ind len ih =>
      cases bytes with
      | nil =>
          rw [Sink.writeAll]
          exact ⟨h, by rw [List.append_nil]⟩
      | cons b bytes =>
          rw [Sink.writeAll, Tap.write_eq]
          generalize (Sink.write (b :: bytes) t.sink).2 = sink
          cases (Sink.write (b :: bytes) t.sink).1 with
          | error kind =>
              refine ⟨h.fail rfl sink, ?_⟩
              rw [Tap.taken_push]
              simp [SinkCall.taken]
          | ok n =>
              cases n with
              | zero =>
                  refine ⟨h.fail rfl sink, ?_⟩
                  rw [Tap.taken_push]
                  simp [SinkCall.taken]
              | succ n =>
                  have hlt : (bytes.drop n).length < len := by
                    rw [← hlen, List.length_drop, List.length_cons]
                    omega
                  refine (ih _ hlt (bytes.drop n) (h.push rfl sink) rfl).after ?_
                  rw [Tap.taken_push]
                  simp [SinkCall.taken]

theorem delivers_flush {t : Tap σ} (h : t.Sound) : Delivers [] t (Sink.flush t) := by
  rw [Tap.flush_eq]
  generalize (Sink.flush t.sink).2 = sink
  cases (Sink.flush t.sink).1 with
  | error kind =>
      refine ⟨h.fail rfl sink, ?_⟩
      rw [Tap.taken_push]
      simp [SinkCall.taken]
  | ok _ =>
      refine ⟨h.push rfl sink, ?_⟩
      rw [Tap.taken_push]
      simp [SinkCall.taken]

/-- A line is its text, its end, and a flush. -/
theorem delivers_writeLine (line : String) {t : Tap σ} (h : t.Sound) :
    Delivers (Utf8.encode line ++ Utf8.encode "\n") t (Sink.writeLine line t) := by
  have hsome : ∀ {first second : List UInt8} {t' : Tap σ} {kind : IoKind},
      Delivers first t (.error kind, t') → Delivers (first ++ second) t (.error kind, t') := by
    intro first second t' kind hd
    exact ⟨hd.1, hd.2.trans (by rw [← List.append_assoc]; exact List.prefix_append _ _)⟩
  have htext := delivers_writeAll (Utf8.encode line) h
  unfold Sink.writeLine Sink.writeThenFlush
  generalize Sink.writeAll (Utf8.encode line) t = r at htext ⊢
  obtain ⟨kind | _, t₁⟩ := r
  · exact hsome htext
  · have hend := delivers_writeAll (Utf8.encode "\n") htext.1
    have hafter : Delivers (Utf8.encode line ++ Utf8.encode "\n") t
        (Sink.writeAll (Utf8.encode "\n") t₁) :=
      hend.after (by rw [htext.2, List.append_assoc])
    simp only
    generalize Sink.writeAll (Utf8.encode "\n") t₁ = r at hafter ⊢
    obtain ⟨kind | _, t₂⟩ := r
    · exact hafter
    · exact (delivers_flush hafter.1).after (by rw [hafter.2, List.append_nil])

end

/-- The buffer has no limits. -/
structure Buffer.Unlimited (b : Buffer) : Prop where
  room : b.room = none
  flushes : b.flushes = none

theorem Buffer.Unlimited.push {b : Buffer} (h : b.Unlimited) (bytes : List UInt8) :
    { b with bytes := b.bytes ++ bytes }.Unlimited := ⟨h.room, h.flushes⟩

/-- A buffer without limits takes all at once. -/
theorem Buffer.Unlimited.writeAll {b : Buffer} (h : b.Unlimited) (bytes : List UInt8) :
    Sink.writeAll bytes b = (.ok (), { b with bytes := b.bytes ++ bytes }) := by
  cases bytes with
  | nil =>
      rw [Sink.writeAll]
      simp
  | cons byte bytes =>
      have hwrite : Sink.write (byte :: bytes) b =
          (.ok (bytes.length + 1), { b with bytes := b.bytes ++ (byte :: bytes) }) := by
        show Buffer.write _ _ = _
        unfold Buffer.write
        rw [h.room]
        rfl
      rw [Sink.writeAll, hwrite]
      simp only
      rw [List.drop_length, Sink.writeAll]

theorem Buffer.Unlimited.flush {b : Buffer} (h : b.Unlimited) : Sink.flush b = (.ok (), b) := by
  show Buffer.flush b = _
  unfold Buffer.flush
  rw [h.flushes]

/-- A flush takes no bytes. -/
theorem Buffer.Unlimited.flush_append {b : Buffer} (h : b.Unlimited) :
    Sink.flush b = (.ok (), { b with bytes := b.bytes ++ ([] : List UInt8) }) := by
  rw [h.flush]
  simp

theorem Buffer.Unlimited.writeLine {b : Buffer} (h : b.Unlimited) (line : String) :
    Sink.writeLine line b =
      (.ok (), { b with bytes := b.bytes ++ (Utf8.encode line ++ Utf8.encode "\n") }) := by
  have hboth : b.bytes ++ Utf8.encode line ++ Utf8.encode "\n" =
      b.bytes ++ (Utf8.encode line ++ Utf8.encode "\n") := Array.ext' (by simp)
  unfold Sink.writeLine Sink.writeThenFlush
  rw [h.writeAll]
  simp only
  rw [(h.push _).writeAll]
  simp only
  rw [((h.push _).push _).flush, hboth]

/-! ### Machines in step -/

section

variable {σ α β : Type}

/-- The sink of the first machine has not failed, and the second machine is the same with a buffer that
holds the bytes the sink has taken. -/
structure Mirrors (m : Machine (Tap σ)) (n : Machine Buffer) : Prop where
  store : m.store = n.store
  input : m.input = n.input
  warnings : m.warnings = n.warnings
  sound : m.sink.Sound
  taken : m.sink.taken = n.sink.bytes.toList
  unlimited : n.sink.Unlimited

theorem congruent_mirrors : Congruent (Mirrors : Machine (Tap σ) → Machine Buffer → Prop) where
  store := Mirrors.store
  setStore := fun h s => ⟨rfl, h.input, h.warnings, h.sound, h.taken, h.unlimited⟩
  warn := fun h w => ⟨h.store, h.input, by rw [h.warnings], h.sound, h.taken, h.unlimited⟩

/-- The machines differ in their sinks only. -/
structure SameRest (m m' : Machine σ) : Prop where
  store : m'.store = m.store
  input : m'.input = m.input
  warnings : m'.warnings = m.warnings

theorem SameRest.refl (m : Machine σ) : SameRest m m := ⟨rfl, rfl, rfl⟩

/-- The buffer has no limits, and holds the bytes from the first on. -/
def Holds (bytes : List UInt8) (n : Machine Buffer) : Prop :=
  n.sink.Unlimited ∧ bytes <+: n.sink.bytes.toList

/-- A call of the sink has failed, which stopped the computation.  Since it started on the machine
`base`, only the sink has changed, and the bytes that it has taken are the first of those that the buffer
holds. -/
def Breaks (base : Machine (Tap σ)) (r : EStateM.Result Halt (Machine (Tap σ)) α)
    (n : Machine Buffer) : Prop :=
  ∃ kind span m', r = .error (.error ⟨.io kind, span⟩) m' ∧ SameRest base m' ∧
    m'.sink.FailedWith kind ∧ Holds m'.sink.taken n

/-- From machines in step, a computation that changes no more than the sink stays in step, or breaks at
a failing call. -/
def Endures (base : Machine (Tap σ)) (x : Exec (Tap σ) α) (y : Exec Buffer α) : Prop :=
  ∀ m n, Mirrors m n → SameRest base m →
    Agree (fun m n => Mirrors m n ∧ SameRest base m) (x m) (y n) ∨
      Breaks base (x m) (machineOf (y n))

variable {base : Machine (Tap σ)}

theorem endures_of_inTandem {x : Exec (Tap σ) α} {y : Exec Buffer α}
    (h : InTandem (fun m n => Mirrors m n ∧ SameRest base m) x y) : Endures base x y :=
  fun m n hm hb => .inl (h m n ⟨hm, hb⟩)

theorem endures_bind {x : Exec (Tap σ) α} {y : Exec Buffer α} {f : α → Exec (Tap σ) β}
    {g : α → Exec Buffer β} (h : Endures base x y) (hf : ∀ a, Endures base (f a) (g a))
    (hg : ∀ a bytes, InTandem (Itself (Holds bytes)) (g a) (g a)) :
    Endures base (x >>= f) (y >>= g) := by
  intro m n hm hb
  show Agree _ (EStateM.bind x f m) (EStateM.bind y g n) ∨
    Breaks base (EStateM.bind x f m) (machineOf (EStateM.bind y g n))
  have hxy := h m n hm hb
  unfold EStateM.bind
  generalize x m = r at hxy ⊢
  generalize y n = r' at hxy ⊢
  rcases hxy with hend | ⟨kind, span, m', rfl, hb', hfail, hholds⟩
  · cases hend with
    | ok hmn => exact hf _ _ _ hmn.1 hmn.2
    | error hmn => exact .inl (.error hmn)
  · -- the other computation goes on, and what it writes comes behind
    refine .inr ⟨kind, span, m', rfl, hb', hfail, ?_⟩
    cases r' with
    | error e n' => exact hholds
    | ok a n' => exact (hg a _).kept hholds

/-- Using the sink stays in step if the buffer takes the same bytes. -/
theorem endures_useSink (span : Span) {act : Tap σ → Except IoKind Unit × Tap σ}
    {act' : Buffer → Except IoKind Unit × Buffer} {bytes : List UInt8}
    (hact : ∀ {t : Tap σ}, t.Sound → Delivers bytes t (act t))
    (hact' : ∀ {b : Buffer}, b.Unlimited → act' b = (.ok (), { b with bytes := b.bytes ++ bytes })) :
    Endures base (Exec.useSink span act) (Exec.useSink span act') := by
  rintro ⟨store, input, sink, warnings⟩ ⟨store', input', sink', warnings'⟩ hm hb
  have hd : Delivers bytes sink (act sink) := hact hm.sound
  have htaken : sink.taken = sink'.bytes.toList := hm.taken
  have hbuffer : Exec.useSink span act' ⟨store', input', sink', warnings'⟩ =
      .ok () ⟨store', input', { sink' with bytes := sink'.bytes ++ bytes }, warnings'⟩ := by
    simp only [Exec.useSink, hact' hm.unlimited]
  rw [hbuffer]
  unfold Exec.useSink
  simp only
  generalize act sink = r at hd ⊢
  obtain ⟨kind | _, t⟩ := r
  · refine .inr ⟨kind, span, _, rfl, ⟨hb.store, hb.input, hb.warnings⟩, hd.1,
      hm.unlimited.push bytes, ?_⟩
    simpa [machineOf, htaken] using hd.2
  · refine .inl (.ok ⟨⟨hm.store, hm.input, hm.warnings, hd.1, ?_, hm.unlimited.push bytes⟩,
      ⟨hb.store, hb.input, hb.warnings⟩⟩)
    simpa [htaken] using hd.2

/-- A buffer without limits keeps what it holds. -/
theorem holds_useSink (span : Span) {act : Buffer → Except IoKind Unit × Buffer} {bytes : List UInt8}
    (hact : ∀ {b : Buffer}, b.Unlimited → act b = (.ok (), { b with bytes := b.bytes ++ bytes }))
    (held : List UInt8) :
    InTandem (Itself (Holds held)) (Exec.useSink span act) (Exec.useSink span act) := by
  rintro ⟨store, input, sink, warnings⟩ _ ⟨rfl, hu, hb⟩
  have huse : Exec.useSink span act ⟨store, input, sink, warnings⟩ =
      .ok () ⟨store, input, { sink with bytes := sink.bytes ++ bytes }, warnings⟩ := by
    simp only [Exec.useSink, hact hu]
  rw [huse]
  refine .ok ⟨rfl, hu.push bytes, ?_⟩
  simpa using hb.trans (List.prefix_append _ bytes)

theorem congruent_holds (held : List UInt8) : Congruent (Itself (Holds held)) :=
  congruent_itself (fun h _ => h) fun h _ => h

theorem holds_printItems (span : Span) (line : String) (items : List PrintItem) (held : List UInt8) :
    InTandem (Itself (Holds held)) (Exec.printItems span line items)
      (Exec.printItems span line items) :=
  inTandem_printItems (congruent_holds held).store
    (fun line span => holds_useSink span (fun h => h.writeLine line) held) items span line

/-- What a buffer holds stays in it throughout a run. -/
theorem shares_holds (held : List UInt8) :
    Shares (Itself (Holds held)) fun _ _ _ => False where
  toCongruent := congruent_holds held
  print := fun items span m n hmn => .inl (holds_printItems span "" items held m n hmn)
  read := fun names span m n hmn => by
    refine .inl (inTandem_readTyped (congruent_holds held) names span ?_ m n hmn)
    rintro m _ ⟨rfl, hh⟩
    exact agree_readFields span rfl ⟨rfl, hh⟩
  flush := fun span m n hmn => .inl (holds_useSink span (fun h => h.flush_append) held m n hmn)

variable [Sink σ]

/-- **Printing stays in step**, or breaks at a failing call. -/
theorem endures_printItems (span : Span) (line : String) (items : List PrintItem) :
    Endures base (Exec.printItems span line items) (Exec.printItems span line items) := by
  have hwrite : ∀ line span, Endures base (Exec.writeLine line span) (Exec.writeLine line span) :=
    fun line span => endures_useSink span (delivers_writeLine line) fun h => h.writeLine line
  have heval : ∀ {α : Type} (f : Store → Eval α), Endures base (Exec.eval f) (Exec.eval f) :=
    fun f => endures_of_inTandem (inTandem_eval (fun h => h.1.store) f)
  induction items generalizing line with
  | nil =>
      unfold Exec.printItems
      split
      · exact endures_of_inTandem (inTandem_pure _)
      · exact hwrite line span
  | cons item items ih =>
      cases item with
      | text content s => exact ih _
      | var name => exact endures_bind (heval _) (fun v => ih _) fun v => holds_printItems span _ items
      | expr e =>
          exact endures_bind (heval _) (fun shown => ih _) fun shown => holds_printItems span _ items
      | lineBreak s =>
          exact endures_bind (hwrite line s) (fun _ => ih _) fun _ => holds_printItems span _ items

theorem step_breaks {t : Task} {x : Exec (Tap σ) Unit} {y : Exec Buffer Unit}
    (ht : t.step = (do x; return [])) (ht' : t.step = (do y; return [])) (h : ∀ base, Endures base x y)
    {m : Machine (Tap σ)} {n : Machine Buffer} (hmn : Mirrors m n) :
    Agree Mirrors (x m) (y n) ∨ Breaks m (t.step m) (machineOf (t.step n)) := by
  refine (h m m n hmn (.refl m)).imp (fun h => h.mono fun _ _ h => h.1) fun h => ?_
  obtain ⟨kind, span, m', hx, hrest⟩ := h
  have hm : t.step m = .error (.error ⟨.io kind, span⟩) m' := by
    rw [ht]
    show EStateM.bind x _ m = _
    unfold EStateM.bind
    rw [hx]
  have hn : machineOf (t.step n) = machineOf (y n) := by
    rw [ht']
    show machineOf (EStateM.bind y _ n) = _
    unfold EStateM.bind
    cases y n <;> rfl
  rw [hn]
  exact ⟨kind, span, m', hm, hrest⟩

/-- A run with any sink goes in step with one with a buffer until a call fails. -/
theorem shares_mirrors : Shares (Mirrors : Machine (Tap σ) → Machine Buffer → Prop)
    (fun t m n => Breaks m (t.step m) (machineOf (t.step n))) where
  toCongruent := congruent_mirrors
  print := fun items span m n hmn => by
    refine step_breaks (t := .statement (.print items span)) rfl rfl (fun base => ?_) hmn
    exact endures_printItems span "" items
  read := fun names span m n hmn => by
    refine .inl (inTandem_readTyped congruent_mirrors names span (fun m n h => ?_) m n hmn)
    refine agree_readFields span (by rw [h.input]) ?_
    exact ⟨h.store, by rw [h.input], h.warnings, h.sound, h.taken, h.unlimited⟩
  flush := fun span m n hmn => by
    refine step_breaks (t := .flush span) rfl rfl (fun base => ?_) hmn
    exact endures_useSink span delivers_flush fun h => h.flush_append

/-! ### The log -/

/-- The machine without the log of its sink. -/
def Machine.untapped (m : Machine (Tap σ)) : Machine σ := ⟨m.store, m.input, m.sink.sink, m.warnings⟩

/-- The machine with an empty log of its sink. -/
def Machine.tapped (m : Machine σ) : Machine (Tap σ) := ⟨m.store, m.input, ⟨m.sink, []⟩, m.warnings⟩

/-- The machine with an empty buffer in the place of its sink. -/
def Machine.buffered (m : Machine σ) : Machine Buffer := ⟨m.store, m.input, .unlimited, m.warnings⟩

theorem writeAll_untapped (bytes : List UInt8) (t : Tap σ) :
    Sink.writeAll bytes t.sink = ((Sink.writeAll bytes t).1, (Sink.writeAll bytes t).2.sink) := by
  induction hlen : bytes.length using Nat.strongRecOn generalizing bytes t with
  | ind len ih =>
      cases bytes with
      | nil => rw [Sink.writeAll, Sink.writeAll]
      | cons b bytes =>
          rw [Sink.writeAll, Sink.writeAll, Tap.write_eq]
          generalize Sink.write (b :: bytes) t.sink = r
          obtain ⟨kind | n, sink⟩ := r
          · rfl
          · cases n with
            | zero => rfl
            | succ n =>
                have hlt : (bytes.drop n).length < len := by
                  rw [← hlen, List.length_drop, List.length_cons]
                  omega
                exact ih _ hlt (bytes.drop n) ⟨sink, _⟩ rfl

theorem writeLine_untapped (line : String) (t : Tap σ) :
    Sink.writeLine line t.sink = ((Sink.writeLine line t).1, (Sink.writeLine line t).2.sink) := by
  unfold Sink.writeLine Sink.writeThenFlush
  rw [writeAll_untapped]
  generalize Sink.writeAll (Utf8.encode line) t = r
  obtain ⟨kind | _, t₁⟩ := r
  · rfl
  · simp only
    rw [writeAll_untapped]
    generalize Sink.writeAll (Utf8.encode "\n") t₁ = r
    obtain ⟨kind | _, t₂⟩ := r
    · rfl
    · rfl

omit [Sink σ] in
theorem inTandem_untapped (span : Span) {act : Tap σ → Except IoKind Unit × Tap σ}
    {act' : σ → Except IoKind Unit × σ} (h : ∀ t, act' t.sink = ((act t).1, (act t).2.sink)) :
    InTandem (fun (m : Machine (Tap σ)) n => n = m.untapped) (Exec.useSink span act)
      (Exec.useSink span act') := by
  rintro ⟨store, input, sink, warnings⟩ _ rfl
  unfold Machine.untapped Exec.useSink
  simp only [h]
  generalize act sink = r
  obtain ⟨kind | _, t⟩ := r
  · exact .error rfl
  · exact .ok rfl

omit [Sink σ] in
theorem congruent_untapped :
    Congruent (fun (m : Machine (Tap σ)) n => n = m.untapped) where
  store := by
    rintro m _ rfl
    rfl
  setStore := by
    rintro m _ rfl s
    rfl
  warn := by
    rintro m _ rfl w
    rfl

/-- The log changes nothing. -/
theorem shares_untapped :
    Shares (fun (m : Machine (Tap σ)) n => n = m.untapped) fun _ _ _ => False where
  toCongruent := congruent_untapped
  print := fun items span m n hmn => by
    refine .inl (inTandem_printItems congruent_untapped.store (fun line span => ?_) items span "" m n
      hmn)
    exact inTandem_untapped span (writeLine_untapped line)
  read := fun names span m n hmn => by
    refine .inl (inTandem_readTyped congruent_untapped names span (fun m n h => ?_) m n hmn)
    subst h
    exact agree_readFields span rfl rfl
  flush := fun span m n hmn => .inl (inTandem_untapped span (fun t => rfl) m n hmn)

/-! ### Programs -/

omit [Sink σ] in
theorem mirrors_start (m : Machine σ) : Mirrors m.tapped m.buffered :=
  ⟨rfl, rfl, rfl, fun c hc => absurd hc (by simp [Machine.tapped]), rfl, ⟨rfl, rfl⟩⟩

/-- What the buffer holds behind a step it holds at the end. -/
theorem Resumes.holds {r : EStateM.Result Halt (Machine Buffer) (List Task)} {us k : List Task}
    {r' : EStateM.Result Halt (Machine Buffer) Unit} (h : Resumes r us k r') {held : List UInt8}
    (hr : Holds held (machineOf r)) : Holds held (machineOf r') := by
  cases r with
  | error e n =>
      have heq : r' = .error e n := h
      rw [heq]
      exact hr
  | ok new n =>
      cases r' with
      | ok _ n' =>
          have hs : Config.Steps (.running (new ++ us) n) (.running k n') := h
          exact hs.kept (shares_holds held) hr
      | error e n' =>
          obtain ⟨c, hs, rfl, -⟩ : ∃ c, Config.Steps (.running (new ++ us) n) c ∧ c.machine = n' ∧ _ := h
          exact hs.kept (shares_holds held) hr

/-- **A sink that fails gets the first part of the output.**  The log of a run changes nothing of it.  The
bytes that the sink has taken are the first of those that a buffer gets that never fails.  If no call has
failed, both runs are the same.  A call that has failed is the last one, and its failure is the end of
the run; it happened in a step that changes nothing but the sink. -/
theorem output_on_failing_sink (fuel : Nat) (p : Program) (m : Machine σ) :
    Agree (fun m n => n = m.untapped) (p.exec fuel m.tapped) (p.exec fuel m) ∧
    (machineOf (p.exec fuel m.tapped)).sink.taken <+:
      (machineOf (p.exec fuel m.buffered)).sink.bytes.toList ∧
    ((machineOf (p.exec fuel m.tapped)).sink.Sound →
      Agree Mirrors (p.exec fuel m.tapped) (p.exec fuel m.buffered)) ∧
    ∀ c ∈ (machineOf (p.exec fuel m.tapped)).sink.calls, ∀ kind, c.failure? = some kind →
      ∃ span m' good, p.exec fuel m.tapped = .error (.error ⟨.io kind, span⟩) m' ∧
        m'.sink.calls = good ++ [c] ∧ (∀ c ∈ good, c.failure? = none) ∧
        ∃ t ts m₀, Config.Steps (.running p.tasks m.tapped) (.running (t :: ts) m₀) ∧
          t.step m₀ = .error (.error ⟨.io kind, span⟩) m' ∧ m₀.sink.Sound ∧ SameRest m₀ m' := by
  have hlog := ((parallel_program shares_untapped fuel p).ends m.tapped m rfl).resolve_right ?_
  · refine ⟨hlog, ?_⟩
    rcases (parallel_program shares_mirrors fuel p).ends _ _ (mirrors_start m) with hend | hpart
    · have hmn := hend.machines
      refine ⟨hmn.taken ▸ List.prefix_refl _, fun _ => hend, fun c hc kind hk => ?_⟩
      rw [hmn.sound c hc] at hk
      cases hk
    · obtain ⟨t, us, m₀, n₀, hsteps, hmn, ⟨kind, span, m', hstep, hrest, hfail, hholds⟩, hr, hr'⟩ :=
        hpart []
      rw [List.append_nil] at hsteps
      have hrun : p.exec fuel m.tapped = .error (.error ⟨.io kind, span⟩) m' := by
        rw [hstep] at hr
        exact hr
      rw [hrun]
      refine ⟨(hr'.holds hholds).2, fun hsound => ?_, fun c hc kind' hk => ?_⟩
      · obtain ⟨good, bad, hcalls, -, hbad⟩ := hfail
        have hnone := hsound bad (by show bad ∈ m'.sink.calls; rw [hcalls]; simp)
        rw [hnone] at hbad
        cases hbad
      · obtain ⟨rfl, good, hcalls, hgood⟩ := hfail.last hc hk
        exact ⟨span, m', good, rfl, hcalls, hgood, t, us, m₀, hsteps, hstep, hmn.sound, hrest⟩
  · intro hpart
    obtain ⟨_, _, _, _, _, _, hfalse, _⟩ := hpart []
    exact hfalse

end

end BisayaLang
