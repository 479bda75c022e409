import RecordQuery.Text.Fields
import RecordQuery.Value

/-!
# Looking values up

`Value.lookup` reads one name of a value, `Value.lookupPath` follows a path of names, and
`Value.lookupText` a path written with dots. An array is read by reading each of its elements,
except for its `count` and `length`.

* `lookupPath_append`: a path is followed piece by piece;
* `lookupPath_of_isAbsent`: nothing is found in an absent value.
-/

namespace RecordQuery.Value

/-- The value answers look-ups itself instead of having its entries read. -/
def answersLookups : Value → Bool
  | keyed _ _ => true
  | record own ancestors => (property "valueForKey" own ancestors).any isFunction
  | bare own => (Entries.get? "valueForKey" own).any isFunction
  | _ => false

/-- What an object holds under a name: the size of a set, the parts of a placeholder, or an entry
of a record. -/
def entry? (name : String) : Value → Option Value
  | set items => if name = "size" then some (number (.ofInt items.length)) else none
  | placeholder n =>
    if name = "key" then some (string n)
    else if name = "hasUnresolvedBindings" then some (bool true)
    else none
  | record own ancestors => property name own ancestors
  | bare own => Entries.get? name own
  | _ => none

/-- What an object holds under a name; under one name it shows what it inherits from, unless an
entry has that name. -/
def shown? (name : String) (v : Value) : Option Value :=
  v.entry? name <|> if name = inheritanceName then v.parent? else none

/-- A value as it is read by name: functions are not. -/
def readable : Option Value → Value
  | some v => if v.isFunction then missing else v
  | none => missing

mutual

/-- The value under a name: what an object that answers look-ups says, the entry of a map, the count
of an array or what its elements hold, or what another object shows. What a function would answer is
not known. -/
def lookup (name : String) : Value → Value
  | keyed _ members => (Entries.get? name members).getD missing
  | map entries => (Entries.get? name entries).getD missing
  | array items =>
    if name = "count" ∨ name = "length" then number (.ofInt items.length)
    else array (lookupEach name items)
  | v => if v.answersLookups then missing else readable (v.shown? name)

/-- The values under a name of the values of a list. -/
def lookupEach (name : String) : List Value → List Value
  | [] => []
  | v :: vs => lookup name v :: lookupEach name vs

end

/-- The value at the end of a path of names. Nothing is found behind an absent value, and an empty
name at the end of the path finds nothing. -/
def lookupPath : List String → Value → Value
  | [], _ => missing
  | [name], v => if name = "" then missing else v.lookup name
  | name :: names, v =>
    let head := v.lookup name
    if head.isAbsent then missing else lookupPath names head

/-- The value at a path that is written with dots between its names. -/
def lookupText (path : String) (v : Value) : Value :=
  lookupPath (Text.splitAt '.' path) v

/-- A path without a dot is a single name. -/
theorem lookupText_of_notMem (name : String) (h₁ : '.' ∉ name.toList) (h₂ : name ≠ "") (v : Value) :
    v.lookupText name = v.lookup name := by
  rw [lookupText, Text.splitAt, Text.fields_of_notMem '.' h₁, List.map_singleton,
    String.ofList_toList, lookupPath, if_neg h₂]

theorem lookupEach_eq_map (name : String) (vs : List Value) :
    lookupEach name vs = vs.map (lookup name) := by
  induction vs with
  | nil => rfl
  | cons v vs ih => simp [lookupEach, ih]

theorem lookup_of_isAbsent {v : Value} (h : v.isAbsent = true) (name : String) :
    v.lookup name = missing := by
  cases v <;> simp_all [isAbsent, lookup, shown?, entry?, parent?, readable]

theorem lookupPath_of_isAbsent {v : Value} (h : v.isAbsent = true) (names : List String) :
    lookupPath names v = missing := by
  match names with
  | [] => rfl
  | [name] => simp [lookupPath, lookup_of_isAbsent h]
  | name :: name' :: names => simp [lookupPath, lookup_of_isAbsent h, isAbsent]

theorem lookupPath_cons (name : String) {names : List String} (h : names ≠ []) (v : Value) :
    lookupPath (name :: names) v = lookupPath names (v.lookup name) := by
  match names with
  | [] => exact absurd rfl h
  | name' :: names =>
    simp only [lookupPath]
    split
    next h₁ => exact (lookupPath_of_isAbsent h₁ _).symm
    next => rfl

/-- A path is followed piece by piece, unless the first piece ends in an empty name. -/
theorem lookupPath_append {names : List String} (h₁ : names ≠ []) (h₂ : names.getLast h₁ ≠ "")
    {names' : List String} (h₃ : names' ≠ []) (v : Value) :
    lookupPath (names ++ names') v = lookupPath names' (lookupPath names v) := by
  induction names generalizing v with
  | nil => exact absurd rfl h₁
  | cons name names ih =>
    cases names with
    | nil =>
      have h₄ : name ≠ "" := h₂
      rw [List.singleton_append, lookupPath_cons name h₃]
      simp [lookupPath, h₄]
    | cons name' names =>
      rw [List.cons_append, lookupPath_cons name (by simp), lookupPath_cons name (by simp)]
      exact ih (by simp) (by simpa using h₂) _

end RecordQuery.Value
