import RecordQuery.Comparison
import RecordQuery.Qualifier.Text

/-!
# Evaluating qualifiers

`Qualifier.evaluate?` tells whether a qualifier holds for an object. Raw SQL has no value in memory:
the negation or compound that holds it logs that, and is false. A comparison with a placeholder that
was never bound is false too.
-/

namespace RecordQuery.Qualifier

/-- The false answer of a qualifier that holds raw SQL, shown by its description. -/
def unevaluated (message : String) (q : Qualifier) : Logged Bool :=
  .noting (.error message [.string q.description]) false

mutual

/-- Whether the qualifier holds for an object; raw SQL has no value. A compound stops at the first
part that settles it. -/
def evaluate? (object : Value) : Qualifier → Option (Logged Bool)
  | always value => some (.quiet value)
  | keyValue key op (.constant c) => some (op.compare (key.valueIn object).normalize c)
  | keyValue key _ (.placeholder name) =>
    some (.noting (.error ("cannot evaluate qualifier with unresolved binding $" ++ name)
      [.string key.text]) false)
  | keyComparison left op right =>
    some (op.compare (left.valueIn object).normalize (right.valueIn object).normalize)
  | not q =>
    match q.evaluate? object with
    | some r => some (r.map (! ·))
    | none => some (unevaluated "negated qualifier does not support evaluation" q)
  | compound c parts => some (evaluateParts object c parts)
  | sql _ => none

/-- Whether a compound of the given parts holds for an object. -/
def evaluateParts (object : Value) (c : Connective) : List Qualifier → Logged Bool
  | [] => .quiet c.unit
  | q :: qs =>
    match q.evaluate? object with
    | some r => r.bind fun b => if b = c.unit then evaluateParts object c qs else .quiet b
    | none => unevaluated "compound child does not support evaluation" q

end

/-- The objects for which a qualifier that can be evaluated holds, with the entries of all
evaluations. -/
def select (q : Qualifier) : List Value → Logged (List Value)
  | [] => .quiet []
  | v :: vs =>
    match q.evaluate? v with
    | some r => r.bind fun b => (q.select vs).map fun kept => if b then v :: kept else kept
    | none => q.select vs

/-- The objects for which a qualifier holds, in their order. Without a qualifier all are kept, and
with one that cannot be evaluated none is. -/
def filter (objects : List Value) : Option Qualifier → Logged (List Value)
  | none => .quiet objects
  | some q =>
    if q.isEvaluatable then q.select objects
    else .noting (.error "qualifier does not support evaluation" [.string q.description]) []

end RecordQuery.Qualifier
