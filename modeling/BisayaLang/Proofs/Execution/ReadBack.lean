/-
**Reading what was shown.**

A print statement shows a variable by its type, and an input statement reads a field by the type of its
variable.  The two are inverse to each other: variables whose texts are put on a line, with commas between
them, have their values again when the line is read.  A text for a `LETRA` needs to stand in a field as it
is, a `NUMERO` needs to be whole, and a `TIPIK` needs to be a number.  Only the sign of zero is lost, and only
for a `NUMERO`.

Main definitions:

* `BisayaLang.Value.Legible` — the value can be read from its text;
* `BisayaLang.Value.readBack` — what is read from the text of a value;
* `BisayaLang.Store.shown` — the text of a variable;
* `BisayaLang.Input.Padded` — a field with spaces and tabs around a text.

Main results:

* `BisayaLang.Number.ofInt_wholePart` — a whole number comes back from its integer;
* `BisayaLang.Value.convert_displayAs` — **one value comes back from its text**;
* `BisayaLang.Input.firstFields_padded` — the texts come back from their line;
* `BisayaLang.read_shown` — **all variables of an input statement come back from their line**.
-/

import BisayaLang.Proofs.Execution.Fields
import BisayaLang.Proofs.Number.Texts

set_option relaxedAutoImplicit false
set_option autoImplicit false

namespace BisayaLang

/-! ### Whole numbers -/

namespace Number

/-- A whole number is the one nearest to its integer. -/
theorem ofRatio_whole {x : Float} {negative : Bool} {m : Nat} {e : Int}
    (h : Parts.ofFloat x = .finite negative m e) (hwhole : isWhole m e = true) :
    ofRatio negative (wholeMagnitude m e) 1 = x := by
  have hden := scale_snd_pos m Nat.one_pos e
  have hdvd : (scale m 1 e).2 ∣ (scale m 1 e).1 := by
    rw [isWhole, beq_iff_eq] at hwhole
    exact Nat.dvd_of_mod_eq_zero hwhole
  have hvalue : magnitudeBits (scale m 1 e).1 (scale m 1 e).2 = magnitudeBits (wholeMagnitude m e) 1 := by
    have hmul := magnitudeBits_mul hden (wholeMagnitude m e) Nat.one_pos
    rwa [wholeMagnitude, Nat.mul_div_cancel' hdvd, Nat.mul_one] at hmul
  rw [ofRatio, ← hvalue, ← ofRatio, ofRatio_scale h]

theorem wholePart_eq {x : Float} {negative : Bool} {m : Nat} {e : Int}
    (h : Parts.ofFloat x = .finite negative m e) (hle : wholeMagnitude m e ≤ 2 ^ 53) :
    wholePart x = signed negative (wholeMagnitude m e) ∧ leastInt ≤ wholePart x ∧
      wholePart x ≤ greatestInt := by
  have hleast : leastInt = -(2 ^ 63 : Nat) := rfl
  have hgreatest : greatestInt = (2 ^ 63 : Nat) - 1 := rfl
  rw [wholePart, h]
  simp only [signed]
  split <;> omega

/-- **A whole number comes back from its integer**; for zero, the sign is lost. -/
theorem ofInt_wholePart {x : Float} {negative : Bool} {m : Nat} {e : Int}
    (h : Parts.ofFloat x = .finite negative m e) (hwhole : isWhole m e = true)
    (hle : wholeMagnitude m e ≤ 2 ^ 53) :
    ofInt (wholePart x) = if x = -0.0 then 0.0 else x := by
  have hx := ofRatio_whole h hwhole
  rw [(wholePart_eq h hle).1, ofInt]
  by_cases hzero : wholeMagnitude m e = 0
  · rw [hzero] at hx ⊢
    rw [← hx]
    cases negative <;> decide +kernel
  · have hne : x ≠ -0.0 := by
      rintro rfl
      have hparts : Parts.ofFloat (-0.0) = .finite true 0 (-1074) := rfl
      cases hparts.symm.trans h
      exact hzero (by decide +kernel)
    rw [if_neg hne]
    cases negative with
    | true =>
        have hneg : signed true (wholeMagnitude m e) < 0 := by
          rw [signed, if_pos rfl]
          omega
        rw [decide_eq_true hneg, signed, if_pos rfl, Int.natAbs_neg, Int.natAbs_natCast]
        exact hx
    | false =>
        have hneg : ¬ signed false (wholeMagnitude m e) < 0 := by
          rw [signed, if_neg (by decide)]
          omega
        rw [decide_eq_false hneg, signed, if_neg (by decide), Int.natAbs_natCast]
        exact hx

end Number

/-! ### One value -/

namespace Value

/-- The value fits the type, and it can be read from its text: a whole number of magnitude at most
`2 ^ 53`, a number, a truth value, or a text that is a field as it stands. -/
def Legible : DataType → Value → Prop
  | .numero, .number x => ∃ negative m e, Number.Parts.ofFloat x = .finite negative m e ∧
      Number.isWhole m e = true ∧ Number.wholeMagnitude m e ≤ 2 ^ 53
  | .tipik, .number x => x.isNaN = false
  | .tinuod, .truth _ => True
  | .letra, .text s => ',' ∉ s.toList ∧ '\n' ∉ s.toList ∧ Text.trim s.toList = s.toList
  | _, _ => False

/-- What is read from the text of a value: the value, but for a `NUMERO` no zero with a minus sign. -/
def readBack : DataType → Value → Value
  | .numero, .number x => .number (if x = -0.0 then 0.0 else x)
  | _, v => v

/-- **One value comes back from its text.** -/
theorem convert_displayAs {type : DataType} {v : Value} (h : v.Legible type) (name : Name) :
    Input.convert name type (v.displayAs type).toList = .ok (v.readBack type) := by
  cases type with
  | numero =>
      cases v with
      | number x =>
          obtain ⟨negative, m, e, hparts, hwhole, hle⟩ := h
          obtain ⟨-, hleast, hgreatest⟩ := Number.wholePart_eq hparts hle
          rw [displayAs, Input.convert, Number.readInt?_toString hleast hgreatest, readBack,
            ← Number.ofInt_wholePart hparts hwhole hle]
      | _ => cases h
  | tipik =>
      cases v with
      | number x =>
          rw [displayAs, Input.convert,
            (Number.readFloat?_write Number.Layout.tipik (Number.Parts.ofFloat_ne_nan h)).1]
          rfl
      | _ => cases h
  | tinuod =>
      cases v with
      | truth b => cases b <;> rfl
      | _ => cases h
  | letra =>
      cases v with
      | text s =>
          show Except.ok (Value.text (String.ofList s.toList)) = _
          rw [String.ofList_toList]
          rfl
      | _ => cases h

end Value

/-! ### One line -/

namespace Text

/-- Blanks around a text make no difference to what is left when it is trimmed. -/
theorem trim_pad {before after : List Char} (hbefore : ∀ c ∈ before, isBlank c = true)
    (hafter : ∀ c ∈ after, isBlank c = true) (cs : List Char) :
    trim (before ++ cs ++ after) = trim cs := by
  have hend : ∀ ds, dropEndWhile isBlank (ds ++ after) = dropEndWhile isBlank ds := by
    intro ds
    rw [dropEndWhile, dropEndWhile, List.reverse_append, List.dropWhile_append_of_pos]
    intro c hc
    exact hafter c (List.mem_reverse.1 hc)
  rw [trim, trim, List.append_assoc, List.dropWhile_append_of_pos hbefore, List.dropWhile_append]
  split
  · rename_i hblank
    rw [List.isEmpty_iff.1 hblank, List.dropWhile_eq_nil_iff.2 hafter]
  · exact hend _

theorem trim_eq_self {cs : List Char} (h : ∀ c ∈ cs, isBlank c = false) : trim cs = cs := by
  have hdrop : ∀ {ds : List Char}, (∀ c ∈ ds, isBlank c = false) → ds.dropWhile isBlank = ds := by
    intro ds hds
    cases ds with
    | nil => rfl
    | cons d ds => rw [List.dropWhile_cons, hds d List.mem_cons_self]; rfl
  rw [trim, dropEndWhile, hdrop h, hdrop, List.reverse_reverse]
  intro c hc
  exact h c (List.mem_reverse.1 hc)

/-- A text that is its own trim does not end with a blank. -/
theorem getLast?_of_trim {cs : List Char} (h : trim cs = cs) :
    ∀ c ∈ cs.getLast?, isBlank c = false := by
  intro c hc
  have hnot := List.head?_dropWhile_not isBlank (cs.dropWhile isBlank).reverse
  rw [← h, trim, dropEndWhile, List.getLast?_reverse] at hc
  rw [hc] at hnot
  exact hnot

end Text

namespace Input

/-- Spaces and tabs stand around a text. -/
def Padded (text field : List Char) : Prop :=
  ∃ before after, (∀ c ∈ before ++ after, c = ' ' ∨ c = '\t') ∧ field = before ++ text ++ after

/-- The text can stand in a field as it is. -/
structure IsField (text : List Char) : Prop where
  comma : ',' ∉ text
  newline : '\n' ∉ text
  trim : Text.trim text = text

theorem isField_of_unbroken {text : List Char} (h : Number.Unbroken text) : IsField text where
  comma := fun hc => (h _ hc).2 rfl
  newline := fun hc => absurd (h _ hc).1 (by decide)
  trim := Text.trim_eq_self fun c hc => (h c hc).1

/-- The text does not end with a character that ends lines. -/
def NoLineEnd (text : List Char) : Prop := ∀ c ∈ text.getLast?, isLineEnd c = false

theorem NoLineEnd.append {cs ds : List Char} (hcs : NoLineEnd cs) (hds : NoLineEnd ds) :
    NoLineEnd (cs ++ ds) := by
  intro c hc
  rw [List.getLast?_append] at hc
  cases hlast : ds.getLast? with
  | none =>
      rw [hlast] at hc
      exact hcs c hc
  | some d =>
      rw [hlast] at hc
      exact hds c (hlast.trans hc)

theorem noLineEnd_pad {pad : List Char} (h : ∀ c ∈ pad, c = ' ' ∨ c = '\t') : NoLineEnd pad := by
  intro c hc
  rcases h c (List.mem_of_getLast? hc) with rfl | rfl <;> rfl

theorem IsField.noLineEnd {text : List Char} (h : IsField text) : NoLineEnd text := by
  intro c hc
  have hblank := Text.getLast?_of_trim h.trim c hc
  cases hend : isLineEnd c with
  | false => rfl
  | true =>
      rw [isLineEnd, Bool.or_eq_true, decide_eq_true_eq, decide_eq_true_eq] at hend
      rcases hend with rfl | rfl <;> exact absurd hblank (by decide)

/-- What the padding leaves as it is. -/
theorem Padded.field {text field : List Char} (h : Padded text field) (ht : IsField text) :
    ',' ∉ field ∧ '\n' ∉ field ∧ NoLineEnd field ∧ Text.trim field = text := by
  obtain ⟨before, after, hpad, rfl⟩ := h
  have hbefore : ∀ c ∈ before, c = ' ' ∨ c = '\t' := fun c hc => hpad c (List.mem_append_left _ hc)
  have hafter : ∀ c ∈ after, c = ' ' ∨ c = '\t' := fun c hc => hpad c (List.mem_append_right _ hc)
  have hnot : ∀ {c : Char} {pad : List Char}, (∀ c ∈ pad, c = ' ' ∨ c = '\t') → c ≠ ' ' → c ≠ '\t' →
      c ∉ pad := fun hp h₁ h₂ hc => (hp _ hc).elim h₁ h₂
  have hblank : ∀ {pad : List Char}, (∀ c ∈ pad, c = ' ' ∨ c = '\t') →
      ∀ c ∈ pad, Text.isBlank c = true := by
    intro pad hp c hc
    rcases hp c hc with rfl | rfl <;> rfl
  refine ⟨?_, ?_, ?_, ?_⟩
  · simp only [List.mem_append, not_or]
    exact ⟨⟨hnot hbefore (by decide) (by decide), ht.comma⟩, hnot hafter (by decide) (by decide)⟩
  · simp only [List.mem_append, not_or]
    exact ⟨⟨hnot hbefore (by decide) (by decide), ht.newline⟩, hnot hafter (by decide) (by decide)⟩
  · exact ((noLineEnd_pad hbefore).append ht.noLineEnd).append (noLineEnd_pad hafter)
  · rw [Text.trim_pad (hblank hbefore) (hblank hafter), ht.trim]

/-- Fields that are joined by commas to a line. -/
theorem line_of_fields {fields : List (List Char)}
    (h : ∀ f ∈ fields, '\n' ∉ f ∧ NoLineEnd f) :
    '\n' ∉ [','].intercalate fields ∧ NoLineEnd ([','].intercalate fields) := by
  induction fields with
  | nil => exact ⟨by simp, fun c hc => by cases hc⟩
  | cons f fields ih =>
      have hf := h f List.mem_cons_self
      cases fields with
      | nil =>
          rw [List.intercalate_singleton]
          exact hf
      | cons f' fields =>
          have hrest := ih fun g hg => h g (List.mem_cons_of_mem f hg)
          rw [List.intercalate_cons_cons]
          refine ⟨?_, (hf.2.append (fun c hc => ?_)).append hrest.2⟩
          · simp only [List.mem_append, not_or]
            exact ⟨⟨hf.1, by decide⟩, hrest.1⟩
          · cases hc
            rfl

/-- The first of several lines. -/
theorem firstLine_append {line : List Char} (h : '\n' ∉ line) (rest : List Char) :
    firstLine (line ++ '\n' :: rest) = line ∧ otherLines (line ++ '\n' :: rest) = rest := by
  have hline : ∀ c ∈ line, (c != '\n') = true := by
    intro c hc
    rw [bne_iff_ne]
    rintro rfl
    exact h hc
  rw [firstLine, otherLines, List.takeWhile_append_of_pos hline, List.dropWhile_append_of_pos hline]
  exact ⟨List.append_nil _, rfl⟩

theorem padded_fields {texts fields : List (List Char)} (h : List.Forall₂ Padded texts fields)
    (htexts : ∀ text ∈ texts, IsField text) :
    (∀ f ∈ fields, ',' ∉ f) ∧ (∀ f ∈ fields, '\n' ∉ f ∧ NoLineEnd f) ∧
      fields.map Text.trim = texts := by
  induction h with
  | nil => exact ⟨by simp, by simp, rfl⟩
  | cons hpad _ ih =>
      obtain ⟨hcomma, hline, htrim⟩ := ih fun text ht => htexts text (List.mem_cons_of_mem _ ht)
      obtain ⟨hcomma', hnewline', hend', htrim'⟩ := hpad.field (htexts _ List.mem_cons_self)
      exact ⟨List.forall_mem_cons.2 ⟨hcomma', hcomma⟩,
        List.forall_mem_cons.2 ⟨⟨hnewline', hend'⟩, hline⟩, by rw [List.map_cons, htrim', htrim]⟩

/-- **The texts come back from their line.** -/
theorem firstFields_padded {texts fields : List (List Char)} (hne : texts ≠ [])
    (htexts : ∀ text ∈ texts, IsField text) (h : List.Forall₂ Padded texts fields)
    (rest : List Char) :
    firstFields ([','].intercalate fields ++ '\n' :: rest) = texts ∧
      otherLines ([','].intercalate fields ++ '\n' :: rest) = rest := by
  obtain ⟨hcomma, hfields, htrim⟩ := padded_fields h htexts
  obtain ⟨hnewline, hend⟩ := line_of_fields hfields
  obtain ⟨hfirst, hother⟩ := firstLine_append hnewline rest
  have hfields_ne : fields ≠ [] := by
    rintro rfl
    exact hne (List.forall₂_nil_right_iff.1 h)
  have hkeep : ([','].intercalate fields).rdropWhile isLineEnd = [','].intercalate fields := by
    refine List.rdropWhile_eq_self_iff.2 fun hl => ?_
    rw [hend _ (List.getLast?_eq_some_getLast hl)]
    decide
  refine ⟨?_, hother⟩
  rw [firstFields, if_neg (by simp), hfirst, hkeep, List.splitOn_intercalate ',' hcomma hfields_ne, htrim]

end Input

theorem Value.isField_displayAs {type : DataType} {v : Value} (h : v.Legible type) :
    Input.IsField (v.displayAs type).toList := by
  cases type with
  | numero =>
      cases v with
      | number x => exact Input.isField_of_unbroken (Number.unbroken_toString _)
      | _ => cases h
  | tipik =>
      cases v with
      | number x =>
          have hx := Number.Parts.ofFloat_ne_nan h
          exact Input.isField_of_unbroken (Number.readFloat?_write Number.Layout.tipik hx).2
      | _ => cases h
  | tinuod =>
      cases v with
      | truth b =>
          refine Input.isField_of_unbroken ?_
          cases b <;> simp [Value.displayAs, Value.display, truthWord, Number.Unbroken] <;> decide
      | _ => cases h
  | letra =>
      cases v with
      | text s => exact ⟨h.1, h.2.1, h.2.2⟩
      | _ => cases h

/-! ### All variables of a statement -/

namespace Store

/-- The text of a variable; there is none where it is not declared. -/
def shown (s : Store) (name : Name) : String :=
  match s.get? name.text with
  | some v => v.value.displayAs v.type
  | none => ""

/-- The variable is declared, and its value can be read from its text. -/
def Legible (s : Store) (name : Name) : Prop :=
  ∃ v, s.get? name.text = some v ∧ v.value.Legible v.type

/-- What is read from the text of a variable. -/
def readBack (s : Store) (name : String) : Value :=
  match s.get? name with
  | some v => v.value.readBack v.type
  | none => .truth false

variable {s : Store} {name : Name}

theorem Legible.isField_shown (h : s.Legible name) : Input.IsField (s.shown name).toList := by
  obtain ⟨v, hget, hlegible⟩ := h
  rw [shown, hget]
  exact Value.isField_displayAs hlegible

theorem Legible.reading_shown (h : s.Legible name) :
    s.reading name (s.shown name).toList = .ok (s.readBack name.text) := by
  obtain ⟨v, hget, hlegible⟩ := h
  rw [reading, find, shown, readBack, hget]
  exact Value.convert_displayAs hlegible name

theorem undeclared?_of_legible {names : List Name} (h : ∀ n ∈ names, s.Legible n) :
    s.undeclared? names = none := by
  refine List.find?_eq_none.2 fun n hn => ?_
  obtain ⟨v, hget, -⟩ := h n hn
  rw [declaredType?, hget]
  exact Bool.false_ne_true

/-- A store with a value for each of several variables, where variables of one name get one value. -/
theorem get?_setEach (s : Store) (w : String → Value) (names : List Name) (name : String) :
    (s.setEach (names.map fun n => (n, w n.text))).get? name =
      if name ∈ names.map Name.text then (s.get? name).map fun v => ⟨v.type, w name⟩
      else s.get? name := by
  induction names generalizing s with
  | nil => rfl
  | cons n names ih =>
      have hcons : s.setEach ((n :: names).map fun n => (n, w n.text)) =
          (s.set n.text (w n.text)).setEach (names.map fun n => (n, w n.text)) := rfl
      rw [hcons, ih, get?_set]
      by_cases hname : name = n.text
      · subst hname
        cases s.get? n.text <;> simp
      · have hne : (name == n.text) = false := by simpa using hname
        simp [hne, hname]

end Store

section

variable {σ : Type}

/-- Fields that all have values are all taken. -/
theorem takeFields_ok {typed : List (Name × DataType)} {fields : List (List Char)}
    {values : List Value}
    (h : List.zipWith (fun x field => Input.convert x.1 x.2 field) typed fields = values.map .ok)
    (m : Machine σ) :
    Exec.takeFields typed fields m =
      .ok () (m.withStore (m.store.setEach ((typed.map Prod.fst).zip values))) := by
  obtain ⟨taken, hok, ⟨hlen, hrun⟩ | ⟨e, he, -⟩⟩ := takeFields_run typed fields m
  · rw [hlen, List.take_length, h] at hok
    have hvalues : values = taken := List.map_injective_iff.2 (fun _ _ heq => by cases heq; rfl) hok
    rw [hrun, hvalues]
  · rw [h, List.getElem?_map] at he
    cases hv : values[taken.length]? with
    | none => simp [hv] at he
    | some v => simp [hv] at he

/-- **All variables of an input statement come back from their line.**  If their values can be read from
their texts, and the texts stand on a line with commas between them and any spaces and tabs around them,
the statement takes the line and succeeds.  Each of the variables has the value that is read from its
text, which is the one it had, but for the sign of a zero; all others are as before. -/
theorem read_shown (names : List Name) (span : Span) (m : Machine σ) (fields : List (List Char))
    (rest : List Char) (hne : names ≠ []) (h : ∀ n ∈ names, m.store.Legible n)
    (hfields : List.Forall₂ Input.Padded (names.map fun n => (m.store.shown n).toList) fields) :
    ∃ store, Exec.read names span (m.withInput ([','].intercalate fields ++ '\n' :: rest)) =
        .ok () ((m.withInput rest).withStore store) ∧
      ∀ name, store.get? name =
        if name ∈ names.map Name.text then
          (m.store.get? name).map fun v => ⟨v.type, v.value.readBack v.type⟩
        else m.store.get? name := by
  have hdeclared := Store.undeclared?_of_legible h
  have htexts : ∀ text ∈ names.map fun n => (m.store.shown n).toList, Input.IsField text := by
    intro text ht
    obtain ⟨n, hn, rfl⟩ := List.mem_map.1 ht
    exact (h n hn).isField_shown
  obtain ⟨hline, hother⟩ := Input.firstFields_padded (by simpa using hne) htexts hfields rest
  have hresults : List.zipWith (fun x field => Input.convert x.1 x.2 field) (m.store.typed names)
      (names.map fun n => (m.store.shown n).toList) =
        (names.map fun n => m.store.readBack n.text).map .ok := by
    rw [Store.zipWith_typed hdeclared, List.zipWith_map_right, List.zipWith_self, List.map_map]
    exact List.map_congr_left fun n hn => (h n hn).reading_shown
  have hgiven : names.zip (names.map fun n => m.store.readBack n.text) =
      names.map fun n => (n, m.store.readBack n.text) := by
    rw [List.zip_map_right, List.zip_eq_zipWith, List.zipWith_self, List.map_map]
    rfl
  have hrun := read_run names span m ([','].intercalate fields ++ '\n' :: rest)
  rw [hdeclared, hline, hother, List.length_map] at hrun
  refine ⟨m.store.setEach (names.map fun n => (n, m.store.readBack n.text)), ?_, fun name => ?_⟩
  · rw [hrun, if_neg (lt_irrefl _), takeFields_ok hresults, Store.map_fst_typed hdeclared, hgiven]
    rfl
  · rw [Store.get?_setEach, Store.readBack]
    cases m.store.get? name with
    | none => rfl
    | some v => rfl

end

theorem read_shown_zero :
    let s : Store := ⟨[("a", .number (-0.0)), ("b", .number 0.1)], [("a", .numero), ("b", .tipik)]⟩
    let m : Machine Unit := ⟨s, [], (), #[]⟩
    ∃ store, Exec.read [⟨"a", ⟨6, 7⟩⟩, ⟨"b", ⟨9, 10⟩⟩] ⟨0, 10⟩ (m.withInput "0 ,\t0.1\n".toList) =
        .ok () ((m.withInput []).withStore store) ∧
      store.get? "a" = some ⟨.numero, .number 0.0⟩ ∧ store.get? "b" = some ⟨.tipik, .number 0.1⟩ := by
  intro s m
  have hlegible : ∀ n ∈ [(⟨"a", ⟨6, 7⟩⟩ : Name), ⟨"b", ⟨9, 10⟩⟩], s.Legible n := by
    intro n hn
    rcases List.mem_pair.1 hn with rfl | rfl
    · exact ⟨⟨.numero, .number (-0.0)⟩, rfl, true, 0, -1074, rfl, by decide +kernel,
        by decide +kernel⟩
    · exact ⟨⟨.tipik, .number 0.1⟩, rfl, show (0.1 : Float).isNaN = false by decide +kernel⟩
  have hpadded : List.Forall₂ Input.Padded
      ([(⟨"a", ⟨6, 7⟩⟩ : Name), ⟨"b", ⟨9, 10⟩⟩].map fun n => (s.shown n).toList)
      [['0', ' '], ['\t', '0', '.', '1']] :=
    .cons ⟨[], [' '], by simp, by decide +kernel⟩
      (.cons ⟨['\t'], [], by simp, by decide +kernel⟩ .nil)
  obtain ⟨store, hrun, hstore⟩ := read_shown _ ⟨0, 10⟩ m _ [] (by decide) hlegible hpadded
  exact ⟨store, hrun, hstore "a", hstore "b"⟩

end BisayaLang
