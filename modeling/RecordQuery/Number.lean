import RecordQuery.Number.Double

/-!
# Double-precision numbers

A `Number` is a finite double, one of the two infinities, or not a number. Arithmetic is exact and
then rounded once.

* `Number.nearest`: the number nearest to a fraction of units; `Number.nearest_units` says that a
  double is the number nearest to its own count of units;
* `Number.same`: the equality of numbers, for which the zeros of both signs are one number.
-/

namespace RecordQuery

/-- A double-precision number, the infinities and not-a-number included. -/
inductive Number where
  | nan
  | infinite (negative : Bool)
  | finite (x : Double)
  deriving DecidableEq

namespace Number

/-- The number nearest to `n / d` units with the given sign; one that is too large is infinite. -/
def nearest (negative : Bool) (n d : Nat) : Number :=
  if h : nearestUnits n d < unitsLimit then
    .finite ⟨negative, nearestUnits n d, representable_nearestUnits h⟩
  else
    .infinite negative

/-- The number nearest to a signed count of units. -/
def ofUnits (n : Int) : Number :=
  nearest (decide (n < 0)) n.natAbs 1

/-- The number nearest to a whole number. -/
def ofInt (n : Int) : Number :=
  ofUnits (n * unitsPerOne)

instance : Inhabited Number := ⟨.finite (.zero false)⟩

/-- The same number: zeros of either sign are, and so is not-a-number with itself. -/
def same : Number → Number → Bool
  | .nan, .nan => true
  | .infinite s, .infinite t => s == t
  | .finite a, .finite b => a.same b
  | _, _ => false

/-- The number is finite. -/
def isFinite : Number → Bool
  | .finite _ => true
  | _ => false

/-- The number is finite and whole. -/
def isInteger : Number → Bool
  | .finite x => x.isInteger
  | _ => false

/-- The sum, exact and then rounded. -/
def add : Number → Number → Number
  | .finite a, .finite b => ofUnits (a.toInt + b.toInt)
  | .infinite s, .infinite t => if s == t then .infinite s else .nan
  | .infinite s, .finite _ => .infinite s
  | .finite _, .infinite t => .infinite t
  | .nan, _ => .nan
  | _, .nan => .nan

/-- The difference of two finite numbers, exact and then rounded. -/
def difference (a b : Double) : Number :=
  ofUnits (a.toInt - b.toInt)

/-- A double of the given sign is nearest to its own count of units. -/
theorem nearest_units (x : Double) : nearest x.negative x.units 1 = .finite x := by
  have h := nearestUnits_one_of_representable x.representable
  have h₁ : nearestUnits x.units 1 < unitsLimit := by rw [h]; exact x.representable.1
  simp only [nearest, h₁, dite_true, Number.finite.injEq]
  exact Double.ext_units rfl h

end Number

end RecordQuery
