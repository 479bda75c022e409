import RecordQuery.Failure
import RecordQuery.Qualifier.Combine

/-!
# Binding values

`Qualifier.bind?` replaces the placeholders of a qualifier by the values that are found under their
names. The answer is `none` if nothing was replaced. A name without a value stays as it is, or is a
failure if all are required; a value that raw SQL cannot hold is a failure in any case.
-/

namespace RecordQuery

/-- The value that a name is bound to, if there is one. Null is a value, what is missing is none. -/
def bindingValue? (bindings : Value) (name : String) : Option Value :=
  match bindings.lookupText name with
  | .missing => none
  | v => some v

/-- What becomes of a name without a value. -/
def unboundName {α : Type} (requiresAll : Bool) (name : String) : Except Failure (Option α) :=
  if requiresAll then .error (.bindingNotFound name none) else .ok none

namespace SqlPart

/-- The part with its placeholder replaced. -/
def bind? (bindings : Value) (requiresAll : Bool) : SqlPart → Except Failure (Option SqlPart)
  | placeholder name =>
    match bindingValue? bindings name with
    | none => unboundName requiresAll name
    | some .null => .ok (some (value none))
    | some v =>
      match RawValue.ofValue? v with
      | some r => .ok (some (value (some r)))
      | none => .error (.unsupportedRawValue name v)
  | _ => .ok none

end SqlPart

/-- What becomes of a list from what becomes of its first element and of the others. The first
failure counts, and a list of which nothing was replaced was not replaced. -/
def consReplaced {α : Type} (a : α) (as : List α) :
    Except Failure (Option α) → Except Failure (Option (List α)) →
      Except Failure (Option (List α))
  | .error e, _ => .error e
  | .ok _, .error e => .error e
  | .ok b, .ok bs => .ok (if b.isSome || bs.isSome then some (b.getD a :: bs.getD as) else none)

/-- Replaces the elements of a list from the left. The answer is `none` if none was replaced. -/
def replaceEach? {α : Type} (replace? : α → Except Failure (Option α)) :
    List α → Except Failure (Option (List α))
  | [] => .ok none
  | a :: as => consReplaced a as (replace? a) (replaceEach? replace? as)

namespace Qualifier

mutual

/-- The qualifier with its placeholders replaced by the values found under their names. -/
def bind? (bindings : Value) (requiresAll : Bool) :
    Qualifier → Except Failure (Option Qualifier)
  | always _ => .ok none
  | keyValue key op (.placeholder name) =>
    match bindingValue? bindings name with
    | none => unboundName requiresAll name
    | some v => .ok (some (keyValue key op (.ofValue v)))
  | keyValue _ _ (.constant _) => .ok none
  | keyComparison _ _ _ => .ok none
  | not q => (q.bind? bindings requiresAll).map (Option.map negate)
  | compound c parts => (bindEach? bindings requiresAll parts).map (Option.map (compound c))
  | sql parts =>
    (replaceEach? (SqlPart.bind? bindings requiresAll) parts).map (Option.map sql)

/-- The parts of a compound with their placeholders replaced. -/
def bindEach? (bindings : Value) (requiresAll : Bool) :
    List Qualifier → Except Failure (Option (List Qualifier))
  | [] => .ok none
  | q :: qs => consReplaced q qs (q.bind? bindings requiresAll) (bindEach? bindings requiresAll qs)

end

/-- The qualifier with its placeholders replaced; the qualifier itself if nothing was. -/
def bind (bindings : Value) (requiresAll : Bool) (q : Qualifier) : Except Failure Qualifier :=
  (q.bind? bindings requiresAll).map fun r => r.getD q

end Qualifier

end RecordQuery
