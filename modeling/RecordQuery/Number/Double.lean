/-!
# Finite double-precision numbers

Every finite double-precision number is a whole multiple of the smallest positive one, `2 ^ -1074`.
A `Double` is therefore a sign and a count of such units, and order, equality and difference are
those of whole numbers.

* `Representable n`: `n` units are a double, that is, `n` has at most 53 significant binary digits
  and is below `2 ^ 1024` in value;
* `nearestUnits n d`: the count with at most 53 significant digits that is nearest to `n / d` units,
  a tie going to the even neighbour; `nearestUnits_one_of_representable` says that a representable
  count is its own nearest one.
-/

namespace RecordQuery

-- Powers of natural numbers are the core ones in every module, whatever algebra is in scope.
attribute [instance (20000), default_instance 20000] instPowNat

/-- The number of units in the number one. -/
@[irreducible] def unitsPerOne : Nat := 2 ^ 1074

/-- The first count that is too large: `2 ^ 1024` in units. -/
@[irreducible] def unitsLimit : Nat := 2 ^ 2098

/-- `n` units are a double: at most 53 significant binary digits, and below the limit. -/
def Representable (n : Nat) : Prop :=
  n < unitsLimit ∧ n % 2 ^ (n.log2 - 52) = 0

instance (n : Nat) : Decidable (Representable n) :=
  inferInstanceAs (Decidable (_ ∧ _))

/-- A finite double-precision number: a sign and a magnitude in units of `2 ^ -1074`. Zero has both
signs. -/
structure Double where
  negative : Bool
  units : Nat
  representable : Representable units
  deriving DecidableEq

/-! ## Rounding -/

/-- The whole number nearest to `n / d`, a half going to the even neighbour. -/
def roundHalfEven (n d : Nat) : Nat :=
  let q := n / d
  let r := n % d
  if 2 * r < d then q else if d < 2 * r then q + 1 else q + q % 2

/-- The count with at most 53 significant binary digits nearest to `n / d` units, a tie going to the
one whose last kept digit is even. -/
def nearestUnits (n d : Nat) : Nat :=
  let shift := (n / d).log2 - 52
  roundHalfEven n (d * 2 ^ shift) * 2 ^ shift

theorem roundHalfEven_le (n d : Nat) : roundHalfEven n d ≤ n / d + 1 := by
  simp only [roundHalfEven]
  split
  · omega
  · split <;> omega

theorem roundHalfEven_of_dvd {n d : Nat} (h : n % d = 0) : roundHalfEven n d = n / d := by
  simp only [roundHalfEven, h]
  split
  · rfl
  · split <;> rename_i h₁ h₂
    · omega
    · have : d = 0 := by omega
      subst this
      simp

/-- A representable count is its own nearest representable count. -/
theorem nearestUnits_one_of_representable {n : Nat} (h : Representable n) :
    nearestUnits n 1 = n := by
  have h₁ : n % 2 ^ (n.log2 - 52) = 0 := h.2
  simp only [nearestUnits, Nat.div_one, Nat.one_mul]
  rw [roundHalfEven_of_dvd h₁]
  exact Nat.div_mul_cancel (Nat.dvd_of_mod_eq_zero h₁)

/-- A product of a count of at most `2 ^ 53` and a power of two has few significant digits. -/
theorem mul_two_pow_mod_eq_zero {m s : Nat} (h : m ≤ 2 ^ 53) :
    m * 2 ^ s % 2 ^ ((m * 2 ^ s).log2 - 52) = 0 := by
  apply Nat.mod_eq_zero_of_dvd
  by_cases h₀ : m = 0
  · simp [h₀]
  · have hs : 0 < 2 ^ s := Nat.two_pow_pos s
    have h₁ : m * 2 ^ s ≠ 0 := Nat.mul_ne_zero h₀ (Nat.pos_iff_ne_zero.1 hs)
    by_cases h₂ : m = 2 ^ 53
    · subst h₂
      rw [← Nat.pow_add, Nat.log2_two_pow]
      exact Nat.pow_dvd_pow 2 (by omega)
    · have h₃ : m < 2 ^ 53 := by omega
      have h₄ : (m * 2 ^ s).log2 < 53 + s := by
        rw [Nat.log2_lt h₁, Nat.pow_add]
        exact (Nat.mul_lt_mul_right hs).2 h₃
      exact Nat.dvd_trans (Nat.pow_dvd_pow 2 (by omega : (m * 2 ^ s).log2 - 52 ≤ s))
        (Nat.dvd_mul_left _ _)

theorem nearestUnits_mod_eq_zero (n d : Nat) :
    nearestUnits n d % 2 ^ ((nearestUnits n d).log2 - 52) = 0 := by
  apply mul_two_pow_mod_eq_zero
  refine Nat.le_trans (roundHalfEven_le _ _) ?_
  rw [← Nat.div_div_eq_div_mul]
  generalize n / d = q
  have h : q / 2 ^ (q.log2 - 52) < 2 ^ 53 := by
    apply Nat.div_lt_of_lt_mul
    rw [← Nat.pow_add]
    exact Nat.lt_of_lt_of_le Nat.lt_log2_self (Nat.pow_le_pow_right (by omega) (by omega))
  omega

/-- What rounding gives is a double as long as it is below the limit. -/
theorem representable_nearestUnits {n d : Nat} (h : nearestUnits n d < unitsLimit) :
    Representable (nearestUnits n d) :=
  ⟨h, nearestUnits_mod_eq_zero n d⟩

namespace Double

/-- The number zero with the given sign. -/
def zero (negative : Bool) : Double where
  negative := negative
  units := 0
  representable := by decide +kernel

instance : Inhabited Double := ⟨zero false⟩

/-- The signed count of units. -/
def toInt (x : Double) : Int :=
  if x.negative then -(x.units : Int) else x.units

/-- Numeric equality: the two zeros are the same number. -/
def same (a b : Double) : Bool :=
  a.toInt == b.toInt

/-- The order of the numbers. -/
def order (a b : Double) : Ordering :=
  compare a.toInt b.toInt

/-- The number is whole. -/
def isInteger (x : Double) : Bool :=
  x.units % unitsPerOne == 0

/-- The number is whole and its neighbours at distance one are doubles as well. -/
def isSafeInteger (x : Double) : Bool :=
  x.isInteger && decide (x.units ≤ (2 ^ 53 - 1) * unitsPerOne)

/-- The number with its fraction dropped. -/
def truncate (x : Double) : Int :=
  let whole := x.units / unitsPerOne
  if x.negative then -(whole : Int) else whole

theorem same_self (a : Double) : a.same a = true := by
  simp [same]

theorem same_iff {a b : Double} : a.same b = true ↔ a.toInt = b.toInt := by
  simp [same]

/-- A double is settled by its sign and its count of units. -/
theorem ext_units {a b : Double} (h₁ : a.negative = b.negative) (h₂ : a.units = b.units) :
    a = b := by
  cases a
  cases b
  simp_all

/-- Numbers that are the same have one magnitude. -/
theorem units_eq_of_same {a b : Double} (h : a.same b = true) : a.units = b.units := by
  have h₁ := same_iff.1 h
  unfold toInt at h₁
  split at h₁ <;> split at h₁ <;> omega

end Double

end RecordQuery
