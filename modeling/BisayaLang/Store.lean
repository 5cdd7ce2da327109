/-
**Variables.**

All variables of a program live in one store: blocks open no scope of their own.  The store keeps the
values and the types of the variables apart, each in the order of the first declarations.  A declaration
writes both; after that, the type of a variable stays until it is declared again, and only its value
changes.

Main definitions:

* `BisayaLang.Variable` — the type and the value of a variable;
* `BisayaLang.Store` — values and types by name;
* `BisayaLang.Store.get?` — look up a variable;
* `BisayaLang.Store.declare` — declare a variable, again if need be;
* `BisayaLang.Store.set` — give a variable that has a value another one.

Main results:

* `BisayaLang.Store.get?_declare`, `BisayaLang.Store.get?_set` — what a look-up finds afterwards.
-/

import BisayaLang.Value.Basic

set_option relaxedAutoImplicit false
set_option autoImplicit false

namespace BisayaLang

/-- The type and the value of a variable. -/
structure Variable where
  type : DataType
  value : Value
  deriving Inhabited

/-- Values and types by name, each in the order of the first declarations. -/
structure Store where
  values : List (String × Value)
  types : List (String × DataType)
  deriving Inhabited

namespace Store

/-- No variables. -/
def empty : Store := ⟨[], []⟩

/-- The value under a name. -/
def value? (s : Store) (name : String) : Option Value := s.values.lookup name

/-- The type under a name. -/
def type? (s : Store) (name : String) : Option DataType := s.types.lookup name

/-- The variable of a name, which needs to have a type and a value. -/
def get? (s : Store) (name : String) : Option Variable :=
  match s.types.lookup name, s.values.lookup name with
  | some type, some value => some ⟨type, value⟩
  | _, _ => none

/-- The name is declared. -/
def isDeclared (s : Store) (name : String) : Bool := (s.type? name).isSome

/-- The number of variables. -/
def size (s : Store) : Nat := s.types.length

/-- All variables with their names. -/
def entries (s : Store) : List (String × Variable) :=
  s.types.filterMap fun (name, _) => (s.get? name).map fun v => (name, v)

/-- Puts something under a name: in the place of what is there, or at the end. -/
def put {α : Type} (name : String) (a : α) : List (String × α) → List (String × α)
  | [] => [(name, a)]
  | (n, b) :: rest => if name == n then (n, a) :: rest else (n, b) :: put name a rest

/-- Declares a variable.  An earlier declaration of the name is replaced, type and value. -/
def declare (s : Store) (name : String) (type : DataType) (value : Value) : Store :=
  ⟨put name value s.values, put name type s.types⟩

/-- Gives a name that has a value another one.  The types are not asked, and stay as they are. -/
def set (s : Store) (name : String) (value : Value) : Store :=
  match s.value? name with
  | some _ => ⟨put name value s.values, s.types⟩
  | none => s

theorem lookup_put {α : Type} (name other : String) (a : α) (entries : List (String × α)) :
    (put name a entries).lookup other =
      if other == name then some a else entries.lookup other := by
  induction entries with
  | nil => cases h : other == name <;> simp [put, List.lookup_cons, h]
  | cons e rest ih =>
      obtain ⟨n, w⟩ := e
      by_cases h₁ : name = n
      · subst h₁
        cases h₂ : other == name <;> simp [put, List.lookup_cons, h₂]
      · cases h₂ : other == n with
        | false => simp [put, List.lookup_cons, h₁, h₂, ih]
        | true =>
            have h₃ : (other == name) = false := by
              rw [eq_of_beq h₂]
              simpa using fun h => h₁ h.symm
            simp [put, List.lookup_cons, h₁, h₂, h₃]

theorem get?_eq (s : Store) (name : String) :
    s.get? name = (s.type? name).bind fun type => (s.value? name).map fun value => ⟨type, value⟩ := by
  unfold get? type? value?
  cases s.types.lookup name <;> cases s.values.lookup name <;> rfl

theorem type?_declare (s : Store) (name other : String) (type : DataType) (value : Value) :
    (s.declare name type value).type? other = if other == name then some type else s.type? other :=
  lookup_put ..

theorem value?_declare (s : Store) (name other : String) (type : DataType) (value : Value) :
    (s.declare name type value).value? other =
      if other == name then some value else s.value? other :=
  lookup_put ..

theorem type?_set (s : Store) (name other : String) (value : Value) :
    (s.set name value).type? other = s.type? other := by
  unfold set
  split <;> rfl

theorem value?_set (s : Store) (name other : String) (value : Value) :
    (s.set name value).value? other =
      if other == name then (s.value? name).map fun _ => value else s.value? other := by
  unfold set
  split
  · rename_i old h
    rw [h]
    exact lookup_put ..
  · rename_i h
    by_cases ho : other = name
    · simp [ho, h]
    · simp [ho]

/-- After a declaration, the name has the new type and value, and all others are as before. -/
theorem get?_declare (s : Store) (name other : String) (type : DataType) (value : Value) :
    (s.declare name type value).get? other =
      if other == name then some ⟨type, value⟩ else s.get? other := by
  rw [get?_eq, type?_declare, value?_declare, get?_eq]
  split <;> rfl

/-- After an assignment, a declared name has its old type and the new value, and all others are as
before. -/
theorem get?_set (s : Store) (name other : String) (value : Value) :
    (s.set name value).get? other =
      if other == name then (s.get? name).map (fun v => ⟨v.type, value⟩) else s.get? other := by
  rw [get?_eq, type?_set, value?_set, get?_eq, get?_eq]
  split
  · rename_i ho
    rw [eq_of_beq ho]
    cases s.type? name <;> cases s.value? name <;> rfl
  · rfl

end Store

end BisayaLang
