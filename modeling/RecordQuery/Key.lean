import RecordQuery.Value.Lookup

/-!
# Keys

A `Key` addresses a value inside an object: a single name, or a path of names. It is read by its
text, in which the names of a path are joined by dots, so a name that holds a dot is a path as well.

* `Key.isEqual`: two paths are equal if they have equally many names and one text, and all other
  keys if they have one text.
-/

namespace RecordQuery

/-- A single name, or a path of at least one name. -/
inductive Key where
  | name (text : String)
  | path (first : String) (rest : List String)
  deriving DecidableEq

namespace Key

/-- The names of a key. -/
def components : Key → List String
  | name text => [text]
  | path first rest => first :: rest

/-- The key as text: its names joined by dots. -/
def text : Key → String
  | name text => text
  | path first rest => String.intercalate "." (first :: rest)

/-- A text as a key: a path if there is a dot in it. -/
def ofText (s : String) : Key :=
  match Text.splitAt '.' s with
  | first :: second :: rest => path first (second :: rest)
  | _ => name s

/-- The path through keys in turn; there is none through no keys. Paths among them give up their
names. -/
def path? (keys : List Key) : Option Key :=
  match keys.flatMap components with
  | [] => none
  | first :: rest => some (path first rest)

/-- The path through one key and then another. -/
def append : Key → Key → Key
  | name text, j => path text j.components
  | path first rest, j => path first (rest ++ j.components)

/-- The value that the key addresses in an object. -/
def valueIn (k : Key) (object : Value) : Value :=
  object.lookupText k.text

/-- Two paths are equal if they have equally many names and one text, all other keys if they have
one text. -/
def isEqual : Key → Key → Bool
  | path f r, path g s => r.length == s.length && (path f r).text == (path g s).text
  | k, j => k.text == j.text

theorem components_ne_nil (k : Key) : k.components ≠ [] := by
  cases k <;> simp [components]

theorem components_append (k j : Key) : (k.append j).components = k.components ++ j.components := by
  cases k <;> simp [append, components]

theorem text_eq_intercalate (k : Key) : k.text = String.intercalate "." k.components := by
  cases k with
  | name text =>
    apply String.toList_injective
    simp [Key.text, components]
  | path first rest => rfl

theorem isEqual_self (k : Key) : k.isEqual k = true := by
  cases k <;> simp [isEqual]

theorem isEqual_comm (k j : Key) : k.isEqual j = j.isEqual k := by
  cases k <;> cases j <;> simp [isEqual, Bool.beq_comm]

/-- Equal keys have one text. -/
theorem text_eq_of_isEqual {k j : Key} (h : k.isEqual j = true) : k.text = j.text := by
  cases k <;> cases j <;> simp_all [isEqual]

end Key

end RecordQuery
