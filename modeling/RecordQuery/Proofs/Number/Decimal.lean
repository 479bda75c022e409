import RecordQuery.Number.Decimal
import RecordQuery.Proofs.Number.Rounding

/-!
# The number that a decimal stands for

`Decimal.toNumber` takes short cuts for powers of ten that are out of reach. Without them it is the
number nearest to one fraction of units (`toNumber_eq_nearest`), so it is finite below one limit
(`isInRange_iff`), and zeros that are moved between the coefficient and the exponent do not count
(`toNumber_withZeros`). The digits that are chosen for a double therefore read back as that double
(`toNumber_shortest`).
-/

namespace RecordQuery

theorem unitsPerOne_eq : unitsPerOne = 2 ^ 1074 := by
  unfold unitsPerOne
  rfl

theorem unitCoefficient_eq : unitCoefficient = 5 ^ 1074 := by
  unfold unitCoefficient
  rfl

theorem five_pow_mul_two_pow (k : Nat) : 5 ^ k * 2 ^ k = 10 ^ k :=
  (Nat.mul_pow 5 2 k).symm

theorem two_pow_le_ten_pow (k : Nat) : 2 ^ (3 * k) ≤ 10 ^ k := by
  rw [Nat.pow_mul]
  exact Nat.pow_le_pow_left (by decide) k

namespace Decimal

/-- The units of a decimal, up to the division by `denominator`. -/
def numerator (d : Decimal) : Nat :=
  d.coefficient * 10 ^ d.exponent.toNat * unitsPerOne

/-- The power of ten that a negative exponent divides by. -/
def denominator (d : Decimal) : Nat :=
  10 ^ (-d.exponent).toNat

/-- The same value with `k` more zeros at the end of its coefficient. -/
def withZeros (d : Decimal) (k : Nat) : Decimal :=
  ⟨d.negative, d.coefficient * 10 ^ k, d.exponent - k⟩

theorem denominator_pos (d : Decimal) : 0 < d.denominator :=
  Nat.pow_pos (by decide)

/-! ## The short cuts -/

/-- A decimal above `10 ^ 400` is out of range. -/
theorem nearest_of_exponent_gt {d : Decimal} (h₁ : d.coefficient ≠ 0) (h₂ : 400 < d.exponent) :
    Number.nearest d.negative d.numerator d.denominator = .infinite d.negative := by
  have h₃ : d.denominator = 1 := by
    rw [denominator, Int.toNat_of_nonpos (by omega), Nat.pow_zero]
  have h₅ : 2 ^ (3 * 401) ≤ 10 ^ d.exponent.toNat :=
    Nat.le_trans (two_pow_le_ten_pow 401) (Nat.pow_le_pow_right (by decide) (by omega))
  rw [h₃]
  refine Number.nearest_of_limit_le (by decide : 2098 ≤ 3 * 401 + 1074) ?_ d.negative
  rw [numerator, unitsPerOne_eq, Nat.pow_add]
  refine Nat.mul_le_mul_right _ (Nat.le_trans h₅ ?_)
  exact Nat.le_mul_of_pos_left _ (Nat.pos_of_ne_zero h₁)

theorem two_pow_le_ten_pow_of_underflow : 2 ^ 1079 ≤ 10 ^ 332 := by
  have h : (2 ^ 13) ^ 83 ≤ (10 ^ 4) ^ 83 := Nat.pow_le_pow_left (by decide) 83
  rwa [← Nat.pow_mul, ← Nat.pow_mul] at h

/-- A decimal below `10 ^ -330` is nearest to zero. -/
theorem nearest_of_exponent_lt {d : Decimal}
    (h₂ : d.exponent + (d.coefficient.log2 / 3 + 1 : Nat) < -330) :
    Number.nearest d.negative d.numerator d.denominator = .finite (.zero d.negative) := by
  apply Number.nearest_of_two_mul_lt
  generalize hL : d.coefficient.log2 = L at h₂
  have h₃ : d.exponent.toNat = 0 := by omega
  have h₄ : d.coefficient < 2 ^ (L + 1) := hL ▸ Nat.lt_log2_self
  have h₅ : 332 + L / 3 ≤ (-d.exponent).toNat := by omega
  rw [numerator, denominator, h₃, Nat.pow_zero, Nat.mul_one, unitsPerOne_eq]
  calc 2 * (d.coefficient * 2 ^ 1074)
      < 2 * (2 ^ (L + 1) * 2 ^ 1074) :=
        Nat.mul_lt_mul_of_pos_left (Nat.mul_lt_mul_of_pos_right h₄ (Nat.two_pow_pos _)) (by decide)
    _ = 2 ^ (L + 1076) := by
        rw [← Nat.pow_add, ← Nat.pow_succ']
    _ ≤ 2 ^ 1079 * 2 ^ (3 * (L / 3)) := by
        rw [← Nat.pow_add]
        exact Nat.pow_le_pow_right (by decide) (by omega)
    _ ≤ 10 ^ 332 * 10 ^ (L / 3) :=
        Nat.mul_le_mul two_pow_le_ten_pow_of_underflow (two_pow_le_ten_pow _)
    _ ≤ 10 ^ (-d.exponent).toNat := by
        rw [← Nat.pow_add]
        exact Nat.pow_le_pow_right (by decide) h₅

/-- The short cuts give what rounding the fraction gives. -/
theorem toNumber_eq_nearest (d : Decimal) :
    d.toNumber = .nearest d.negative d.numerator d.denominator := by
  by_cases h₁ : d.coefficient = 0
  · have h₂ : 2 * d.numerator < d.denominator := by
      rw [numerator, h₁, Nat.zero_mul, Nat.zero_mul]
      exact d.denominator_pos
    rw [Number.nearest_of_two_mul_lt h₂]
    simp only [toNumber, h₁, if_pos]
  · simp only [toNumber, if_neg h₁]
    split
    next h₂ => exact (nearest_of_exponent_gt h₁ h₂).symm
    next =>
      split
      next h₃ => exact (nearest_of_exponent_lt h₃).symm
      next =>
        split
        next h₄ =>
          have h₅ : (-d.exponent).toNat = 0 := by omega
          simp only [numerator, denominator, h₅, Nat.pow_zero]
        next h₄ =>
          have h₅ : d.exponent.toNat = 0 := by omega
          simp only [numerator, denominator, h₅, Nat.pow_zero, Nat.mul_one]

/-! ## The range of doubles -/

/-- The number `2 ^ 1024 - 2 ^ 970`, half-way between the greatest double and the power of two that
would be the next one. -/
@[irreducible] def rangeLimit : Nat := (2 ^ 54 - 1) * 2 ^ 970

/-- The decimal lies below the limit, apart from its sign. -/
def IsInRange (d : Decimal) : Prop :=
  d.coefficient * 10 ^ d.exponent.toNat < rangeLimit * d.denominator

instance (d : Decimal) : Decidable d.IsInRange :=
  inferInstanceAs (Decidable (_ < _))

/-- A decimal stands for a finite number if it is in the range of doubles, and else it does not. -/
theorem isInRange_iff (d : Decimal) : d.IsInRange ↔ ∃ x, d.toNumber = .finite x := by
  have h₁ : unitsLimit = 2 ^ (53 + 2045) := by
    unfold unitsLimit
    rfl
  have h₂ : 2 * d.numerator = d.coefficient * 10 ^ d.exponent.toNat * 2 ^ 1075 := by
    rw [numerator, unitsPerOne_eq, Nat.mul_left_comm, ← Nat.pow_succ']
  have h₃ : (2 ^ 54 - 1) * (d.denominator * 2 ^ 2045) = rangeLimit * d.denominator * 2 ^ 1075 := by
    have h₄ : 2 ^ 2045 = 2 ^ 970 * 2 ^ 1075 := Nat.pow_add 2 970 1075
    unfold rangeLimit
    rw [h₄, ← Nat.mul_assoc d.denominator, Nat.mul_comm d.denominator, ← Nat.mul_assoc,
      ← Nat.mul_assoc]
  rw [toNumber_eq_nearest, Number.exists_nearest_eq_finite_iff, h₁,
    nearestUnits_lt_two_pow_iff d.denominator_pos, h₂, h₃, Nat.mul_lt_mul_right (Nat.two_pow_pos _)]
  exact Iff.rfl

/-! ## Moving zeros -/

theorem toNumber_withZeros (d : Decimal) (k : Nat) : (d.withZeros k).toNumber = d.toNumber := by
  rw [toNumber_eq_nearest, toNumber_eq_nearest]
  refine Number.nearest_eq_of_ratio (denominator_pos _) (denominator_pos _) ?_ d.negative
  have h : k + (d.exponent - k).toNat + (-d.exponent).toNat
      = d.exponent.toNat + (-(d.exponent - k)).toNat := by omega
  simp only [numerator, denominator, withZeros]
  calc d.coefficient * 10 ^ k * 10 ^ (d.exponent - k).toNat * unitsPerOne
        * 10 ^ (-d.exponent).toNat
      = d.coefficient * 10 ^ (k + (d.exponent - k).toNat + (-d.exponent).toNat) * unitsPerOne := by
        rw [Nat.pow_add, Nat.pow_add]
        ac_rfl
    _ = d.coefficient * 10 ^ d.exponent.toNat * unitsPerOne
        * 10 ^ (-(d.exponent - k)).toNat := by
        rw [h, Nat.pow_add]
        ac_rfl

end Decimal

/-! ## Written doubles -/

namespace Double

theorem toNumber_exact (x : Double) : x.exact.toNumber = .finite x := by
  rw [Decimal.toNumber_eq_nearest, ← Number.nearest_units x]
  refine Number.nearest_eq_of_ratio (Decimal.denominator_pos _) Nat.one_pos ?_ x.negative
  have h : unitCoefficient * unitsPerOne = 10 ^ 1074 := by
    rw [unitCoefficient_eq, unitsPerOne_eq]
    exact five_pow_mul_two_pow 1074
  have h₁ : (-1074 : Int).toNat = 0 := by decide
  have h₂ : (-(-1074 : Int)).toNat = 1074 := by decide
  simp only [Decimal.numerator, Decimal.denominator, exact, h₁, h₂, Nat.pow_zero, Nat.mul_one]
  rw [Nat.mul_assoc, h]

theorem toNumber_of_withDigits? {x : Double} {size count : Nat} {d : Decimal}
    (h : x.withDigits? size count = some d) : d.toNumber = .finite x := by
  simp only [withDigits?] at h
  split at h
  next h₁ =>
    obtain rfl := Option.some.inj h
    simp only [Bool.and_eq_true, decide_eq_true_eq] at h₁
    exact h₁.1
  next =>
    split at h
    next h₂ =>
      obtain rfl := Option.some.inj h
      exact of_decide_eq_true h₂
    next => contradiction

/-- The digits that a double is written with read back as the double. -/
theorem toNumber_shortest (x : Double) : x.shortest.toNumber = .finite x := by
  unfold shortest
  dsimp only
  cases h : (List.range' 1 17).findSome?
      (x.withDigits? (digitCount (x.units * unitCoefficient))) with
  | none => exact toNumber_exact x
  | some d =>
    obtain ⟨count, -, h₁⟩ := List.exists_of_findSome?_eq_some h
    exact toNumber_of_withDigits? h₁

theorem negative_shortest (x : Double) : x.shortest.negative = x.negative := by
  have h := x.toNumber_shortest
  rw [Decimal.toNumber_eq_nearest] at h
  exact (Number.negative_of_nearest h).symm

theorem coefficient_shortest_ne_zero {x : Double} (h : x.units ≠ 0) :
    x.shortest.coefficient ≠ 0 := by
  intro h₁
  have h₂ := x.toNumber_shortest
  simp only [Decimal.toNumber, if_pos h₁, Number.finite.injEq] at h₂
  exact h (h₂ ▸ rfl)

end Double

end RecordQuery
