import RecordQuery.Qualifier.Basic

/-!
# Combining qualifiers

Conjunction, disjunction and negation with simplification on the spot: truth values vanish or take
over, compounds of the same connective are joined into one, and a double negation is none.
-/

namespace RecordQuery.Qualifier

/-- The parts that a qualifier contributes to a compound of the given connective. -/
def partsFor (c : Connective) : Qualifier → List Qualifier
  | compound d parts => if d = c then parts else [compound d parts]
  | q => [q]

/-- Joins two qualifiers. The truth value that a compound without parts amounts to vanishes, the
other one takes over. -/
def join (c : Connective) : Qualifier → Qualifier → Qualifier
  | always a, right => if a = c.unit then right else always a
  | left, always b => if b = c.unit then left else always b
  | left, right => compound c (partsFor c left ++ partsFor c right)

/-- Both hold. -/
def conjoin (left right : Qualifier) : Qualifier :=
  join .and left right

/-- At least one holds. -/
def disjoin (left right : Qualifier) : Qualifier :=
  join .or left right

/-- The qualifier does not hold. -/
def negate : Qualifier → Qualifier
  | not q => q
  | always value => always !value
  | q => not q

/-- Joins a qualifier with one that may be absent. -/
def joinWith (c : Connective) (left : Qualifier) : Option Qualifier → Qualifier
  | some right => join c left right
  | none => left

/-- Joins two qualifiers of which either may be absent; what is absent does not count. -/
def joinOptional (c : Connective) : Option Qualifier → Option Qualifier → Option Qualifier
  | some left, right => some (joinWith c left right)
  | none, right => right

/-- The conjunction of two qualifiers of which either may be absent. -/
def both (left right : Option Qualifier) : Option Qualifier :=
  joinOptional .and left right

/-- The disjunction of two qualifiers of which either may be absent. -/
def either (left right : Option Qualifier) : Option Qualifier :=
  joinOptional .or left right

end RecordQuery.Qualifier
