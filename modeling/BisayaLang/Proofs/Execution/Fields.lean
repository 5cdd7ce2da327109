/-
**A line of input for several variables.**

An input statement looks up the types of its variables, takes one line off the input, cuts it into
fields, and gives the fields to the variables one after the other.  Each of these can fail, and the
order decides what a failure leaves behind: a variable that is not declared leaves the input as it is, a
line with too few fields leaves the variables as they are, and a field that is no value of its type
leaves the variables before it with their new values.

Storing a value changes no type, so that what each field comes to can be read off the store as it was
before the first, also where a name stands in the statement more than once.

Main definitions:

* `BisayaLang.Input.firstLine`, `BisayaLang.Input.otherLines` — a text, cut behind its first line;
* `BisayaLang.Input.firstFields` — the fields of the first line of a text;
* `BisayaLang.Store.undeclared?` — the first of some names that is not declared;
* `BisayaLang.Store.reading` — what a field comes to for a variable;
* `BisayaLang.Store.setEach` — a store with a value for each of several variables.

Main results:

* `BisayaLang.readFields_run` — reading takes the first line of a text and gives its fields;
* `BisayaLang.typesOf_run` — the types are found unless a name is not declared;
* `BisayaLang.read_run` — an input statement in three stages;
* `BisayaLang.takeFields_run` — how far the fields are taken, and what stops that;
* `BisayaLang.read_line` — **what an input statement does**, also where it fails.
-/

import BisayaLang.Proofs.Execution.Chains
import BisayaLang.Proofs.Execution.Lockstep
import BisayaLang.Proofs.Source.Utf8
import Mathlib.Data.List.DropRight

set_option relaxedAutoImplicit false
set_option autoImplicit false

namespace BisayaLang

/-! ### The first line of a text -/

namespace Input

/-- The first line of a text, without the line feed behind it. -/
def firstLine (text : List Char) : List Char := text.takeWhile (· != '\n')

/-- What follows the first line of a text and its line feed. -/
def otherLines (text : List Char) : List Char := (text.dropWhile (· != '\n')).tail

/-- The fields of the first line: what stands between its commas, without the characters that end the
line and without blanks around.  At the end of the input there are none. -/
def firstFields (text : List Char) : List (List Char) :=
  if text = [] then []
  else (((firstLine text).rdropWhile isLineEnd).splitOn ',').map Text.trim

theorem splitCommas_eq (cs : List Char) : splitCommas cs = cs.splitOn ',' := by
  induction cs with
  | nil => rfl
  | cons c cs ih =>
      rw [splitCommas, ih, List.splitOn_cons_eq_if_modifyHead]
      by_cases hc : c = ','
      · rw [if_pos hc, if_pos (by simp [hc])]
      · rw [if_neg hc, if_neg (by simp [hc])]
        cases hs : cs.splitOn ',' with
        | nil => exact absurd hs (List.splitOn_ne_nil _ _)
        | cons field fields => rfl

theorem fields_eq (line : List Char) :
    fields line = ((line.rdropWhile isLineEnd).splitOn ',').map Text.trim := by
  rw [fields, splitCommas_eq]
  rfl

/-- No byte of a character other than the line feed is the byte of the line feed. -/
theorem newline_not_mem_utf8EncodeChar {c : Char} (h : c ≠ '\n') :
    10 ∉ String.utf8EncodeChar c := by
  have hcode : c.toNat ≠ 10 := fun hc => h (by rw [← Char.ofNat_toNat c, hc])
  have hbyte : ∀ {n : Nat}, n < 256 → n ≠ 10 → 10 ≠ UInt8.ofNat n := by
    intro n hn hne heq
    have htoNat := congrArg UInt8.toNat heq
    rw [UInt8.toNat_ofNat', Nat.mod_eq_of_lt (by omega)] at htoNat
    exact hne htoNat.symm
  rw [String.utf8EncodeChar]
  simp only [Char.toNat_val]
  -- the bytes of a character that has several of them are all above those of the plain ones
  split
  · rw [List.mem_singleton]
    exact hbyte (by omega) hcode
  · split
    · simp only [List.mem_cons, List.not_mem_nil, or_false, not_or]
      exact ⟨hbyte (by omega) (by omega), hbyte (by omega) (by omega)⟩
    · split
      · simp only [List.mem_cons, List.not_mem_nil, or_false, not_or]
        exact ⟨hbyte (by omega) (by omega), hbyte (by omega) (by omega), hbyte (by omega) (by omega)⟩
      · simp only [List.mem_cons, List.not_mem_nil, or_false, not_or]
        exact ⟨hbyte (by omega) (by omega), hbyte (by omega) (by omega), hbyte (by omega) (by omega),
          hbyte (by omega) (by omega)⟩

/-- Bytes without a line feed belong to the line. -/
theorem takeLine_append_of_not_mem {bytes : List UInt8} (h : 10 ∉ bytes) (rest : List UInt8) :
    takeLine (bytes ++ rest) = (bytes ++ (takeLine rest).1, (takeLine rest).2) := by
  induction bytes with
  | nil => rfl
  | cons b bytes ih =>
      obtain ⟨hb, hbytes⟩ : 10 ≠ b ∧ 10 ∉ bytes := by simpa using h
      rw [List.cons_append, takeLine, if_neg (Ne.symm hb), ih hbytes]
      rfl

/-- The bytes of some characters. -/
def bytesOf (text : List Char) : List UInt8 := text.flatMap String.utf8EncodeChar

theorem encode_ofList (text : List Char) : Utf8.encode (String.ofList text) = bytesOf text := by
  rw [Utf8.encode_eq_flatMap, String.toList_ofList, bytesOf]

theorem decode?_bytesOf (text : List Char) : Utf8.decode? (bytesOf text) = some text := by
  rw [← encode_ofList, Utf8.decode?_encode, String.toList_ofList]

theorem bytesOf_ne_nil {text : List Char} (h : text ≠ []) : bytesOf text ≠ [] := by
  obtain ⟨c, cs, rfl⟩ := List.exists_cons_of_ne_nil h
  obtain ⟨b, bytes, hb, -⟩ := Utf8.readChar_encodeChar c []
  rw [bytesOf, List.flatMap_cons, hb]
  simp

/-- **The line that is taken is the first line of the text**, with its line feed if it has one. -/
theorem takeLine_bytesOf (text : List Char) :
    ∃ line, takeLine (bytesOf text) = (bytesOf line, bytesOf (otherLines text)) ∧
      (line = firstLine text ∨ line = firstLine text ++ ['\n']) ∧ (line = [] ↔ text = []) := by
  induction text with
  | nil => exact ⟨[], rfl, .inl rfl, Iff.rfl⟩
  | cons c cs ih =>
      by_cases hc : c = '\n'
      · subst hc
        exact ⟨['\n'], rfl, .inr rfl, by simp⟩
      · obtain ⟨line, hline, hfirst, -⟩ := ih
        have hlater : otherLines (c :: cs) = otherLines cs := by
          rw [otherLines, List.dropWhile_cons, if_pos (by simpa using hc), ← otherLines]
        have hmore : firstLine (c :: cs) = c :: firstLine cs := by
          rw [firstLine, List.takeWhile_cons, if_pos (by simpa using hc), ← firstLine]
        refine ⟨c :: line, ?_, ?_, by simp⟩
        · rw [bytesOf, List.flatMap_cons,
            takeLine_append_of_not_mem (newline_not_mem_utf8EncodeChar hc), ← bytesOf, hline, hlater]
          rfl
        · rw [hmore]
          rcases hfirst with rfl | rfl
          · exact .inl rfl
          · exact .inr rfl

/-- The line feed at the end of a line makes no difference to its fields. -/
theorem fields_line {text line : List Char} (hne : text ≠ [])
    (h : line = firstLine text ∨ line = firstLine text ++ ['\n']) :
    fields line = firstFields text := by
  rw [fields_eq, firstFields, if_neg hne]
  rcases h with rfl | rfl
  · rfl
  · rw [List.rdropWhile_concat_pos _ _ _ rfl]

end Input

/-! ### Reading a line -/

section

variable {σ α β : Type}

theorem run_bind_ok {x : Exec σ α} {f : α → Exec σ β} {m m' : Machine σ} {a : α}
    (h : x m = .ok a m') : (x >>= f) m = f a m' := by
  show EStateM.bind x f m = _
  rw [EStateM.bind, h]

theorem run_bind_error {x : Exec σ α} {f : α → Exec σ β} {m m' : Machine σ} {e : Halt}
    (h : x m = .error e m') : (x >>= f) m = .error e m' := by
  show EStateM.bind x f m = _
  rw [EStateM.bind, h]

/-- The machine with a text as its input. -/
def Machine.withInput (m : Machine σ) (text : List Char) : Machine σ :=
  { m with input := Utf8.encode (String.ofList text) }

/-- **Reading takes the first line of a text**, and gives its fields. -/
theorem readFields_run (span : Span) (m : Machine σ) (text : List Char) :
    Exec.readFields span (m.withInput text) =
      .ok (Input.firstFields text) (m.withInput (Input.otherLines text)) := by
  obtain ⟨line, hline, hfirst, hempty⟩ := Input.takeLine_bytesOf text
  have htake : Input.takeLine (m.withInput text).input =
      (Input.bytesOf line, Utf8.encode (String.ofList (Input.otherLines text))) := by
    rw [Machine.withInput, Input.encode_ofList, hline, Input.encode_ofList]
  have hrun : Exec.readFields span (m.withInput text) =
      Exec.fieldsOf span (Input.bytesOf line) (m.withInput (Input.otherLines text)) := by
    rw [readFields_eq, htake]
    rfl
  rw [hrun, Exec.fieldsOf]
  by_cases htext : text = []
  · rw [hempty.2 htext, htext]
    rfl
  · have hne : (Input.bytesOf line).isEmpty = false := by
      simpa using Input.bytesOf_ne_nil (fun h => htext (hempty.1 h))
    rw [hne, Input.decode?_bytesOf, ← Input.fields_line htext hfirst]
    rfl

/-! ### The types of the variables -/

/-- The first of some names that is not declared. -/
def Store.undeclared? (s : Store) (names : List Name) : Option Name :=
  names.find? fun n => (s.declaredType? n).isNone

/-- The names that are declared, with their types. -/
def Store.typed (s : Store) (names : List Name) : List (Name × DataType) :=
  names.filterMap fun n => (s.declaredType? n).map fun type => (n, type)

/-- **The types are found, unless a name is not declared**; the first such name is to blame. -/
theorem typesOf_run (names : List Name) (m : Machine σ) :
    Exec.typesOf names m =
      match m.store.undeclared? names with
      | none => .ok (m.store.typed names) m
      | some n => .error (.error ⟨.undefinedVariable n.text, n.span⟩) m := by
  induction names with
  | nil => rfl
  | cons n names ih =>
      rw [Exec.typesOf, eval_bind_run, Store.find, Store.undeclared?, List.find?_cons,
        Store.typed, List.filterMap_cons, Store.declaredType?]
      cases m.store.get? n.text with
      | none => rfl
      | some v =>
          simp only [Option.map_some, Option.isNone_some]
          rw [← Store.undeclared?, ← Store.typed]
          cases hfirst : m.store.undeclared? names with
          | none =>
              rw [hfirst] at ih
              exact run_bind_ok ih
          | some n' =>
              rw [hfirst] at ih
              exact run_bind_error ih

end

/-! ### Giving fields to variables -/

namespace Store

/-- What a field comes to for a variable, by the type of that. -/
def reading (s : Store) (name : Name) (field : List Char) : Eval Value := do
  Input.convert name (← s.find name).type field

/-- The store with a value for each of several variables, from left to right. -/
def setEach (s : Store) (given : List (Name × Value)) : Store :=
  given.foldl (fun s x => s.set x.1.text x.2) s

theorem type?_setEach (s : Store) (given : List (Name × Value)) (name : String) :
    (s.setEach given).type? name = s.type? name := by
  induction given generalizing s with
  | nil => rfl
  | cons x given ih => exact (ih _).trans (type?_set ..)

/-- A variable holds the last value that it was given, and all others keep theirs. -/
theorem value?_setEach {s : Store} {given : List (Name × Value)}
    (h : ∀ x ∈ given, (s.value? x.1.text).isSome = true) (name : String) :
    (s.setEach given).value? name =
      ((given.map fun x => (x.1.text, x.2)).reverse.lookup name).or (s.value? name) := by
  induction given generalizing s with
  | nil => rfl
  | cons x given ih =>
      have hx := h x (by simp)
      have hlater : ∀ y ∈ given, ((s.set x.1.text x.2).value? y.1.text).isSome = true := by
        intro y hy
        rw [value?_set]
        split
        · simpa using hx
        · exact h y (by simp [hy])
      obtain ⟨old, hold⟩ := Option.isSome_iff_exists.1 hx
      rw [show s.setEach (x :: given) = (s.set x.1.text x.2).setEach given from rfl, ih hlater,
        value?_set, hold, List.map_cons, List.reverse_cons, List.lookup_append, Option.or_assoc]
      by_cases hname : name = x.1.text
      · simp [hname]
      · have hne : (name == x.1.text) = false := by simpa using hname
        rw [hne, List.lookup_cons, hne]
        rfl

theorem value?_of_typed {s : Store} {names : List Name} (h : s.undeclared? names = none) :
    ∀ n ∈ names, (s.value? n.text).isSome = true := by
  intro n hn
  have hsome := List.find?_eq_none.1 h n hn
  obtain ⟨type, htype⟩ := Option.ne_none_iff_exists'.1 (by simpa using hsome)
  obtain ⟨value, hvalue⟩ := value?_of_declaredType? htype
  rw [hvalue]
  rfl

theorem typed_cons {s : Store} {n : Name} {names : List Name}
    (h : s.undeclared? (n :: names) = none) :
    ∃ v, s.get? n.text = some v ∧ s.typed (n :: names) = (n, v.type) :: s.typed names ∧
      s.undeclared? names = none := by
  rw [undeclared?, List.find?_cons, declaredType?] at h
  cases hget : s.get? n.text with
  | none => simp [hget] at h
  | some v =>
      refine ⟨v, rfl, ?_, by rwa [hget] at h⟩
      rw [typed, List.filterMap_cons, declaredType?, hget]
      rfl

/-- The names of declared variables, with their types, are the names. -/
theorem map_fst_typed {s : Store} {names : List Name} (h : s.undeclared? names = none) :
    (s.typed names).map Prod.fst = names := by
  induction names with
  | nil => rfl
  | cons n names ih =>
      obtain ⟨v, -, htyped, hnames⟩ := typed_cons h
      rw [htyped, List.map_cons, ih hnames]

/-- The types that were looked up before are those by which the fields are read. -/
theorem zipWith_typed {s : Store} {names : List Name} (h : s.undeclared? names = none)
    (fields : List (List Char)) :
    List.zipWith (fun x field => Input.convert x.1 x.2 field) (s.typed names) fields =
      List.zipWith s.reading names fields := by
  induction names generalizing fields with
  | nil => rfl
  | cons n names ih =>
      obtain ⟨v, hget, htyped, hnames⟩ := typed_cons h
      cases fields with
      | nil => rw [List.zipWith_nil_right, List.zipWith_nil_right]
      | cons field fields =>
          have hread : s.reading n field = Input.convert n v.type field := by
            rw [reading, find, hget]
            rfl
          rw [htyped, List.zipWith_cons_cons, List.zipWith_cons_cons, ih hnames, hread]

end Store

section

variable {σ : Type}

/-- **One field for one variable**: the value is stored, or there is none and that is the error. -/
theorem takeFields_cons_run (x : Name × DataType) (typed : List (Name × DataType)) (field : List Char)
    (fields : List (List Char)) (m : Machine σ) :
    Exec.takeFields (x :: typed) (field :: fields) m =
      match Input.convert x.1 x.2 field with
      | .ok value => Exec.takeFields typed fields (m.withStore (m.store.set x.1.text value))
      | .error e => .error (.error e) m := by
  rw [Exec.takeFields]
  cases Input.convert x.1 x.2 field <;> rfl

/-- **How far the fields are taken**, what they leave behind, and what stops that. -/
theorem takeFields_run (typed : List (Name × DataType)) (fields : List (List Char))
    (m : Machine σ) :
    let results := List.zipWith (fun x field => Input.convert x.1 x.2 field) typed fields
    ∃ values : List Value, results.take values.length = values.map .ok ∧
      ((values.length = results.length ∧ Exec.takeFields typed fields m =
          .ok () (m.withStore (m.store.setEach ((typed.map Prod.fst).zip values)))) ∨
        ∃ e, results[values.length]? = some (.error e) ∧ Exec.takeFields typed fields m =
          .error (.error e) (m.withStore (m.store.setEach ((typed.map Prod.fst).zip values)))) := by
  induction typed generalizing fields m with
  | nil => exact ⟨[], rfl, .inl ⟨rfl, rfl⟩⟩
  | cons x typed ih =>
      cases fields with
      | nil => exact ⟨[], rfl, .inl ⟨rfl, rfl⟩⟩
      | cons field fields =>
          simp only [takeFields_cons_run, List.zipWith_cons_cons]
          cases hvalue : Input.convert x.1 x.2 field with
          | error e => exact ⟨[], rfl, .inr ⟨e, rfl, rfl⟩⟩
          | ok value =>
              obtain ⟨values, hok, hend⟩ :=
                ih fields (m.withStore (m.store.set x.1.text value))
              refine ⟨value :: values, ?_, ?_⟩
              · rw [List.length_cons, List.take_succ_cons, hok]
                rfl
              · rcases hend with ⟨hlen, hrun⟩ | ⟨e, he, hrun⟩
                · exact .inl ⟨by rw [List.length_cons, List.length_cons, hlen], hrun⟩
                · exact .inr ⟨e, by rw [List.length_cons, List.getElem?_cons_succ, he], hrun⟩

/-- **An input statement in three stages**: the types of its variables, the fields of a line, and the values
of these. -/
theorem read_run (names : List Name) (span : Span) (m : Machine σ) (text : List Char) :
    Exec.read names span (m.withInput text) =
      match m.store.undeclared? names with
      | some n => .error (.error ⟨.undefinedVariable n.text, n.span⟩) (m.withInput text)
      | none =>
          (if (Input.firstFields text).length < names.length then
            Exec.fail (.insufficientInput names.length (Input.firstFields text).length) span
          else Exec.takeFields (m.store.typed names) (Input.firstFields text))
            (m.withInput (Input.otherLines text)) := by
  have htypes := typesOf_run names (m.withInput text)
  rw [show (m.withInput text).store = m.store from rfl] at htypes
  rw [Exec.read]
  cases hfirst : m.store.undeclared? names with
  | some n =>
      rw [hfirst] at htypes
      exact run_bind_error htypes
  | none =>
      rw [hfirst] at htypes
      rw [run_bind_ok htypes, run_bind_ok (readFields_run span m text)]

/-- **What an input statement does.**  If a name is not declared, the first such name is the error, and
nothing has changed.  Else the first line is taken off the input.  If it has fewer fields than there are
names, that is the error, and no variable has changed.  Else the fields are read for the names from left
to right, up to the first one that is no value of its variable's type, whose error stops it, or up to the
last name.  A variable that was given values holds the last of them; no type changes, and no other
variable. -/
theorem read_line (names : List Name) (span : Span) (m : Machine σ) (text : List Char) :
    match m.store.undeclared? names with
    | some n => Exec.read names span (m.withInput text) =
        .error (.error ⟨.undefinedVariable n.text, n.span⟩) (m.withInput text)
    | none =>
        let fields := Input.firstFields text
        let m' := m.withInput (Input.otherLines text)
        if fields.length < names.length then
          Exec.read names span (m.withInput text) =
            .error (.error ⟨.insufficientInput names.length fields.length, span⟩) m'
        else
          let results := List.zipWith m.store.reading names fields
          ∃ values store, results.take values.length = values.map .ok ∧
            (∀ name, store.type? name = m.store.type? name) ∧
            (∀ name, store.value? name =
              (((names.map Name.text).zip values).reverse.lookup name).or (m.store.value? name)) ∧
            ((values.length = names.length ∧
                Exec.read names span (m.withInput text) = .ok () (m'.withStore store)) ∨
              ∃ e, results[values.length]? = some (.error e) ∧
                Exec.read names span (m.withInput text) =
                  .error (.error e) (m'.withStore store)) := by
  have hrun := read_run names span m text
  cases hfirst : m.store.undeclared? names with
  | some n =>
      rw [hfirst] at hrun
      exact hrun
  | none =>
      rw [hfirst] at hrun
      simp only at hrun ⊢
      by_cases hfew : (Input.firstFields text).length < names.length
      · rw [if_pos hfew] at hrun ⊢
        exact hrun
      · rw [if_neg hfew] at hrun ⊢
        obtain ⟨values, hok, hend⟩ := takeFields_run (m.store.typed names) (Input.firstFields text)
          (m.withInput (Input.otherLines text))
        rw [Store.zipWith_typed hfirst] at hok hend
        rw [Store.map_fst_typed hfirst] at hend
        refine ⟨values, m.store.setEach (names.zip values), hok, fun name => Store.type?_setEach ..,
          fun name => ?_, ?_⟩
        · have htexts : (names.zip values).map (fun x => (x.1.text, x.2)) =
              (names.map Name.text).zip values := by
            rw [List.zip_map_left]
            rfl
          rw [Store.value?_setEach, htexts]
          intro x hx
          exact Store.value?_of_typed hfirst x.1 (List.of_mem_zip hx).1
        · rw [hrun]
          rcases hend with ⟨hlen, hdone⟩ | ⟨e, he, hstop⟩
          · refine .inl ⟨?_, hdone⟩
            rw [hlen, List.length_zipWith]
            omega
          · exact .inr ⟨e, he, hstop⟩

end

end BisayaLang
