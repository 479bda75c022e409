import RecordQuery.Fetch.BindPattern
import RecordQuery.Qualifier.Binding
import RecordQuery.Qualifier.Text
import RecordQuery.SortOrdering

/-!
# Fetch specifications

A `FetchSpecification` tells what to fetch: of which entity, under which condition, in which order,
and which part of the result; and hints for whoever carries it out. Changes give a new
specification.
-/

namespace RecordQuery

/-- What to fetch. -/
structure FetchSpecification where
  entity : Option String := none
  qualifier : Option Qualifier := none
  orderings : List SortOrdering := []
  limit : Option Number := none
  offset : Option Number := none
  distinct : Bool := false
  /-- Binding fails if a value is missing. -/
  requiresAllBindings : Bool := false
  hints : Entries Value := []

namespace FetchSpecification

/-- Fetches under another condition. -/
def withQualifier (s : FetchSpecification) (q : Option Qualifier) : FetchSpecification :=
  { s with qualifier := q }

/-- Fetches under one more condition, in the given way. -/
def joinQualifier (s : FetchSpecification) (c : Connective) (q : Option Qualifier) :
    FetchSpecification :=
  { s with qualifier := Qualifier.joinOptional c s.qualifier q }

/-- Sorts by more orderings, after those that are there. -/
def orderBy (s : FetchSpecification) (os : List SortOrdering) : FetchSpecification :=
  { s with orderings := s.orderings ++ os }

/-- Gives a hint a value; a missing value removes it. -/
def hint (s : FetchSpecification) (name : String) (v : Value) : FetchSpecification :=
  { s with hints := match v with
    | .missing => s.hints.erase name
    | v => setHint name v s.hints }

/-- Binds the values of the condition and fills in the hints. -/
def bind (s : FetchSpecification) (bindings : Value) : Except Failure FetchSpecification :=
  match s.qualifier with
  | none => .ok { s with hints := resolveHints s.hints bindings }
  | some q =>
    (q.bind bindings s.requiresAllBindings).map fun q =>
      { s with qualifier := some q, hints := resolveHints s.hints bindings }

/-! ## Description -/

/-- The part of the result that is fetched. -/
def rangeText (s : FetchSpecification) : String :=
  match s.limit, s.offset with
  | some limit, some offset => " range=" ++ offset.text ++ "/#" ++ limit.text
  | some limit, none => " limit=" ++ limit.text
  | none, some offset => " offset=" ++ offset.text
  | none, none => ""

/-- The orderings. -/
def orderText (s : FetchSpecification) : String :=
  if s.orderings.isEmpty then ""
  else " sort=" ++ String.intercalate "," (s.orderings.map SortOrdering.text)

/-- The specification in one line. -/
def description (s : FetchSpecification) : String :=
  let entity := match s.entity with
    | some name => " '" ++ name ++ "'"
    | none => ""
  let condition := match s.qualifier with
    | some q => " " ++ q.text
    | none => ""
  "<FetchSpecification:" ++ entity ++ condition ++ s.orderText ++ s.rangeText
    ++ (if s.distinct then " DISTINCT" else "") ++ ">"

end FetchSpecification

end RecordQuery
