import RecordQuery.Fetch.Specification
import RecordQuery.Qualifier.Evaluation

/-!
# Fetching from a list

A `ListSource` carries a fetch out on a list of objects: it binds, keeps the objects for which the
conditions hold, sorts them, and takes the part that is asked for. Counts need not be whole or
positive: a place is a number cut to a whole one, and a negative place counts from the end.
-/

namespace RecordQuery

namespace Number

/-- The place in a list of `length` elements that a number stands for. -/
def place (length : Nat) : Number → Nat
  | nan => 0
  | infinite negative => if negative then 0 else length
  | finite x =>
    let n := x.truncate
    if n < 0 then (length + n).toNat else min n.toNat length

end Number

/-- The elements from one place up to another. -/
def sliceList {α : Type} (as : List α) (start stop : Number) : List α :=
  let i := start.place as.length
  (as.drop i).take (stop.place as.length - i)

/-- A list of objects with what to fetch from it. -/
structure ListSource where
  objects : List Value
  specification : Option FetchSpecification := none
  /-- A condition that holds besides that of the specification. -/
  auxiliary : Option Qualifier := none
  /-- The values that are bound before each fetch, if any. -/
  bindings : Option Value := none

namespace ListSource

/-- The specification with its values bound. -/
def boundSpecification (s : ListSource) : Except Failure FetchSpecification :=
  match s.specification, s.bindings with
  | none, _ => .ok {}
  | some spec, none => .ok spec
  | some spec, some b => spec.bind b

/-- The auxiliary condition with its values bound. -/
def boundAuxiliary (s : ListSource) (requiresAll : Bool) : Except Failure (Option Qualifier) :=
  match s.auxiliary, s.bindings with
  | some q, some b => (q.bind b requiresAll).map some
  | q, _ => .ok q

/-- The objects for which a condition holds. One that cannot be evaluated is logged, and all objects
are kept. -/
def keep (s : ListSource) : Option Qualifier → Logged (List Value)
  | none => .quiet s.objects
  | some q =>
    if q.isEvaluatable then q.select s.objects
    else .noting (.error "qualifier does not support evaluation, not filtering"
      [.string q.description]) s.objects

/-- The part of the sorted objects that a specification asks for. -/
def page (spec : FetchSpecification) (objects : List Value) : List Value :=
  let start := spec.offset.getD (.ofInt 0)
  match spec.limit with
  | none => sliceList objects start (.infinite false)
  | some limit => sliceList objects start (start.add limit)

/-- The objects that are fetched. -/
def fetch (s : ListSource) : Except Failure (Logged (List Value)) :=
  match s.boundSpecification with
  | .error e => .error e
  | .ok spec =>
    match s.boundAuxiliary spec.requiresAllBindings with
    | .error e => .error e
    | .ok auxiliary =>
      let kept := s.keep (Qualifier.both spec.qualifier auxiliary)
      .ok (kept.map fun objects => page spec (SortOrdering.sort spec.orderings objects))

/-- The count of the objects that are fetched. -/
def count (s : ListSource) : Except Failure (Logged Nat) :=
  s.fetch.map fun r => r.map List.length

end ListSource

end RecordQuery
