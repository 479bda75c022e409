import RecordQuery.Entries
import RecordQuery.Instant

/-!
# Values

What callers hand in and what the objects of a query are made of. A `Value` is dynamic: a record can
hold anything under its names, and nothing is known of an object before it is read.

* `Members`: what an object holds, the text that it converts to included;
* `Value.text?`: the text of a value when text is asked for. Only arrays can lack one
  (`text?_eq_none_iff`);
* `Value.items?`: the elements of what can be gone through one by one;
* `Value.typeName`: the name by which a message describes the kind of a value.
-/

namespace RecordQuery

/-- What an object holds: entries of its own, and the text that it converts to. How an object
converts is its own affair, and its entries do not tell. An object that refuses to be converted is
not among the values: there is no constant for it, and whoever compares it gets an error instead of
an answer. -/
structure Members (α : Type) where
  entries : List (String × α)
  text : String

/-- A dynamic value. -/
inductive Value where
  /-- No value at all, which differs from `null`. -/
  | missing
  | null
  | bool (b : Bool)
  | number (x : Number)
  /-- A whole number of any size. -/
  | bigInteger (n : Int)
  | string (s : String)
  /-- A date, `none` if it does not denote an instant. -/
  | date (t : Option Instant)
  | array (items : List Value)
  | set (items : List Value)
  | map (entries : List (String × Value))
  /-- An object of a named class that can be gone through but has no readable names. -/
  | sequence (className : String) (items : List Value)
  /-- An object of a named class of which only its text is known. -/
  | described (className text : String)
  /-- An object of a named class that answers key look-ups itself. -/
  | keyed (className : String) (members : Members Value)
  | symbol (name : String)
  | function
  /-- A named placeholder for a value that is bound later. -/
  | placeholder (name : String)
  /-- A record with members of its own, and the members of the records that it inherits from, the
  nearest one first. -/
  | record (own : Members Value) (ancestors : List (Members Value))
  /-- The record that all records inherit from in the end. It has no readable entries. -/
  | commonRecord
  /-- A record that inherits nothing, not even the name of a class. -/
  | bare (own : Members Value)

instance : Inhabited Value := ⟨.missing⟩

/-- The text of an object that has none of its own. -/
def objectText : String := "[object Object]"

/-- Entries alone are the members of an object that has no text of its own. -/
instance {α : Type} : Coe (List (String × α)) (Members α) :=
  ⟨fun es => ⟨es, objectText⟩⟩

instance {α : Type} : Coe (Members α) (List (String × α)) :=
  ⟨Members.entries⟩

namespace Value

/-- Null or missing. -/
def isAbsent : Value → Bool
  | missing => true
  | null => true
  | _ => false

/-- A function. -/
def isFunction : Value → Bool
  | function => true
  | _ => false

/-- A symbol. -/
def isSymbol : Value → Bool
  | symbol _ => true
  | _ => false

mutual

/-- The text of a value. The elements of an array are separated by commas, and an array in which a
symbol stands has no text. -/
def text? : Value → Option String
  | missing => some "undefined"
  | null => some "null"
  | bool b => some (if b then "true" else "false")
  | number x => some x.text
  | bigInteger n => some ((if n < 0 then "-" else "") ++ .ofList (digits n.natAbs))
  | string s => some s
  | date none => some "Invalid Date"
  | date (some t) => some t.longText
  | array items => (elementTexts? items).map (String.intercalate ",")
  | set _ => some "[object Set]"
  | map _ => some "[object Map]"
  | sequence _ _ => some objectText
  | described _ text => some text
  | keyed _ members => some members.text
  | symbol name => some ("Symbol(" ++ name ++ ")")
  | function => some "function"
  | placeholder name => some ("$" ++ name)
  | record own _ => some own.text
  | commonRecord => some objectText
  | bare own => some own.text

/-- The texts of the elements of an array, empty for an absent one. A symbol is not turned into text
there, though it is where it stands alone. -/
def elementTexts? : List Value → Option (List String)
  | [] => some []
  | v :: vs =>
    match if v.isAbsent then some "" else if v.isSymbol then none else v.text? with
    | some t => (elementTexts? vs).map (t :: ·)
    | none => none

end

/-- The text of a value that has one. -/
def text (v : Value) : String :=
  v.text?.getD ""

@[simp] theorem text?_string (s : String) : (string s).text? = some s := rfl

@[simp] theorem text_string (s : String) : (string s).text = s := rfl

theorem elementTexts?_eq_none_iff (vs : List Value) :
    elementTexts? vs = none ↔ ∃ v ∈ vs, v.isSymbol = true ∨ v.text? = none := by
  induction vs with
  | nil => simp [elementTexts?]
  | cons v vs ih =>
    simp only [elementTexts?, List.mem_cons, exists_eq_or_imp, ← ih]
    by_cases h₁ : v.isAbsent = true
    · have h₂ : ¬(v.isSymbol = true ∨ v.text? = none) := by
        cases v <;> simp [isAbsent, isSymbol, text?] at h₁ ⊢
      simp [h₁, h₂]
    · by_cases h₂ : v.isSymbol = true
      · simp [h₁, h₂]
      · cases v.text? <;> simp [h₁, h₂]

/-- Only an array lacks a text: one in which a symbol stands, or another array without a text. -/
theorem text?_eq_none_iff {v : Value} :
    v.text? = none ↔
      ∃ items, v = array items ∧ ∃ w ∈ items, w.isSymbol = true ∨ w.text? = none := by
  constructor
  · intro h
    cases v with
    | array items =>
      rw [text?, Option.map_eq_none_iff] at h
      exact ⟨items, rfl, (elementTexts?_eq_none_iff items).1 h⟩
    | date t => cases t <;> simp [text?] at h
    | _ => simp [text?] at h
  · rintro ⟨items, rfl, h⟩
    rw [text?, Option.map_eq_none_iff]
    exact (elementTexts?_eq_none_iff items).2 h

example : (array [string "a", array [symbol "b"]]).text? = none := rfl

/-- The elements of a value that can be gone through: those of a collection, the characters of a
string, and the entries of a map as pairs. -/
def items? : Value → Option (List Value)
  | array items => some items
  | set items => some items
  | sequence _ items => some items
  | map entries => some (entries.map fun e => array [string e.1, e.2])
  | string s => some (s.toList.map fun c => string (.ofList [c]))
  | _ => none

/-! ## Sets -/

/-- Two values are one element of a set: equal numbers, texts, truth values or absences. Objects are
elements of their own. -/
def isSameElement : Value → Value → Bool
  | missing, missing => true
  | null, null => true
  | bool a, bool b => a == b
  | number a, number b => a.same b
  | bigInteger a, bigInteger b => a == b
  | string a, string b => a == b
  | _, _ => false

/-- The set of the given elements, in the order of their first occurrence. -/
def setOf (items : List Value) : Value :=
  set (items.foldl (fun acc v => if acc.any (·.isSameElement v) then acc else acc ++ [v]) [])

/-! ## Entries of records -/

/-- The entry of a record under a name: its own one, or else that of the nearest record that it
inherits from. -/
def property (name : String) (own : Members Value) (ancestors : List (Members Value)) :
    Option Value :=
  (own :: ancestors).findSome? fun members => Entries.get? name members.entries

/-- What an object inherits from: a record from the next one, an object of a class from what is taken
to be a record without readable entries, and the common record from nothing. -/
def parent? : Value → Option Value
  | record _ [] => some commonRecord
  | record _ (own :: ancestors) => some (record own ancestors)
  | commonRecord => some null
  | date _ => some (record ⟨[], objectText⟩ [])
  | set _ => some (record ⟨[], "[object Set]"⟩ [])
  | sequence _ _ => some (record ⟨[], objectText⟩ [])
  | described _ _ => some (record ⟨[], objectText⟩ [])
  | placeholder _ => some (record ⟨[], "$undefined"⟩ [])
  | _ => none

/-- The name under which an object shows what it inherits from. -/
def inheritanceName : String := "__proto__"

/-! ## Class names -/

/-- The name that a record of data gives as that of its class: the text under `name` of what it
holds under `constructor`. -/
def statedClassName (constructor : Value) : String :=
  let name := match constructor with
    | record own ancestors => property "name" own ancestors
    | bare own => Entries.get? "name" own
    | _ => none
  match name with
  | some v => if v.isAbsent then "object" else v.text
  | none => "object"

/-- The name that describes the kind of a value. -/
def typeName : Value → String
  | missing => "undefined"
  | null => "null"
  | bool _ => "boolean"
  | number _ => "number"
  | bigInteger _ => "bigint"
  | string _ => "string"
  | date _ => "Date"
  | array _ => "array"
  | set _ => "Set"
  | map _ => "Map"
  | sequence className _ => className
  | described className _ => className
  | keyed className _ => className
  | symbol _ => "symbol"
  | function => "function"
  | placeholder _ => "QualifierVariable"
  | record own ancestors =>
    match property "constructor" own ancestors with
    | some v => statedClassName v
    | none => "Object"
  | commonRecord => "Object"
  | bare own =>
    match Entries.get? "constructor" own with
    | some v => statedClassName v
    | none => "object"

end Value

end RecordQuery
