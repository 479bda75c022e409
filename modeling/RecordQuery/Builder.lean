import RecordQuery.Qualifier.Combine
import RecordQuery.Qualifier.Text

/-!
# Building qualifiers step by step

A `Builder` holds the qualifier so far. Each step adds a comparison in place of it, or joined with
it, and gives a new builder.
-/

namespace RecordQuery

/-- How a step treats what is there. -/
inductive Builder.Junction where
  | replace
  | join (c : Connective)

/-- The qualifier so far, if there is one. -/
structure Builder where
  qualifier : Option Qualifier := none

namespace Builder

/-- Adds a qualifier. -/
def add (b : Builder) (j : Junction) (q : Qualifier) : Builder :=
  match j, b.qualifier with
  | .join c, some old => ⟨some (old.join c q)⟩
  | _, _ => ⟨some q⟩

/-- Adds the comparison of a key with a value. -/
def compare (b : Builder) (j : Junction) (key : String) (r : Relation) (v : Value) : Builder :=
  b.add j (.ofKeyText key (.known r) v)

/-- Adds the test that the value at a key is one of the items. -/
def oneOf (b : Builder) (j : Junction) (key : String) (items : List Value) : Builder :=
  b.compare j key .isIn (.array items)

/-- Adds the test that the value at a key is null. -/
def isNull (b : Builder) (j : Junction) (key : String) : Builder :=
  b.compare j key .equalTo .null

/-- Adds the test that the value at a key is not null. -/
def isNotNull (b : Builder) (j : Junction) (key : String) : Builder :=
  b.compare j key .notEqualTo .null

/-- Adds the comparison of two keys. -/
def compareKeys (b : Builder) (j : Junction) (key : String) (op : Operation) (other : String) :
    Builder :=
  b.add j (.keyComparison (.ofText key) op (.ofText other))

/-- Negates the qualifier so far. -/
def negate (b : Builder) : Builder :=
  ⟨b.qualifier.map Qualifier.negate⟩

/-- The qualifier so far as text; the empty text if there is none. -/
def text (b : Builder) : String :=
  match b.qualifier with
  | some q => q.text
  | none => ""

end Builder

end RecordQuery
