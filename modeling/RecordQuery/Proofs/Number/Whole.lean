import RecordQuery.Proofs.Number.Decimal

/-!
# Counting with numbers

Whole numbers are exact up to `2 ^ 53`; from there on they are rounded, and in the end infinite, but
never rounded below `2 ^ 53`. So a number that counts things (`Number.Counts`) can be trusted as far
as there are no more than that: `Number.counts_ofInt` for whole numbers, `Number.Counts.add` for
sums.
-/

namespace RecordQuery

namespace Number

/-- The number `2 ^ 53` in units. -/
def exactLimit : Nat :=
  2 ^ 53 * unitsPerOne

/-- The number is `n` as far as whole numbers are exact: it is `n`, or both are `2 ^ 53` or more. -/
def Counts (n : Nat) : Number → Prop
  | nan => False
  | infinite negative => negative = false ∧ 2 ^ 53 ≤ n
  | finite x => x.negative = false ∧ min x.units exactLimit = min (n * unitsPerOne) exactLimit

theorem unitsPerOne_pos : 0 < unitsPerOne :=
  Nat.lt_of_lt_of_eq (Nat.two_pow_pos 1074) unitsPerOne_eq.symm

theorem representable_whole {n : Nat} (h : n ≤ 2 ^ 53) : Representable (n * unitsPerOne) := by
  rw [unitsPerOne_eq]
  refine ⟨?_, mul_two_pow_mod_eq_zero (s := 1074) h⟩
  calc n * 2 ^ 1074
    _ ≤ 2 ^ 53 * 2 ^ 1074 := Nat.mul_le_mul_right _ h
    _ = 2 ^ 1127 := (Nat.pow_add 2 53 1074).symm
    _ < 2 ^ 2098 := Nat.pow_lt_pow_right (by decide) (by decide)
    _ = unitsLimit := by unfold unitsLimit; rfl

/-- Rounding does not cross the limit. -/
theorem exactLimit_le_nearestUnits {m : Nat} (h : exactLimit ≤ m) :
    exactLimit ≤ nearestUnits m 1 := by
  have h₁ : exactLimit = 2 ^ (53 + 1074) := by rw [exactLimit, unitsPerOne_eq, ← Nat.pow_add]
  rw [h₁] at h ⊢
  have h₂ : m ≠ 0 := Nat.pos_iff_ne_zero.1 (Nat.lt_of_lt_of_le (Nat.two_pow_pos _) h)
  calc 2 ^ (53 + 1074)
    _ ≤ 2 ^ m.log2 := Nat.pow_le_pow_right (by decide) ((Nat.le_log2 h₂).2 h)
    _ = 2 ^ (m / 1).log2 := by rw [Nat.div_one]
    _ ≤ nearestUnits m 1 := two_pow_log2_le_nearestUnits (by rwa [Nat.div_one])

/-- Counts of units that agree up to the limit still do once the one is rounded. -/
theorem counts_ofUnits {m n : Nat} (h : min m exactLimit = min (n * unitsPerOne) exactLimit) :
    Counts n (ofUnits m) := by
  have h₀ : ofUnits m = nearest false m 1 := rfl
  rw [h₀, nearest]
  by_cases hn : n < 2 ^ 53
  · have h₁ : n * unitsPerOne < exactLimit := (Nat.mul_lt_mul_right unitsPerOne_pos).2 hn
    have h₂ : m = n * unitsPerOne := by omega
    have h₃ : Representable m := h₂ ▸ representable_whole (Nat.le_of_lt hn)
    have h₄ := nearestUnits_one_of_representable h₃
    rw [dif_pos (Nat.lt_of_le_of_lt (Nat.le_of_eq h₄) h₃.1)]
    exact ⟨rfl, congrArg (min · exactLimit) (h₄.trans h₂)⟩
  · have h₁ : exactLimit ≤ n * unitsPerOne := Nat.mul_le_mul_right _ (Nat.le_of_not_lt hn)
    have h₂ : exactLimit ≤ m := by omega
    have h₃ := exactLimit_le_nearestUnits h₂
    split
    · exact ⟨rfl, by rw [Nat.min_eq_right h₃, Nat.min_eq_right h₁]⟩
    · exact ⟨rfl, Nat.le_of_not_lt hn⟩

theorem counts_ofInt (n : Nat) : Counts n (ofInt n) := by
  have h : ofInt n = ofUnits ((n * unitsPerOne : Nat) : Int) := rfl
  rw [h]
  exact counts_ofUnits rfl

theorem Counts.add {a b : Nat} {x y : Number} (hx : Counts a x) (hy : Counts b y) :
    Counts (a + b) (x.add y) := by
  cases x with
  | nan => exact hx.elim
  | infinite s =>
    obtain ⟨rfl, ha⟩ := hx
    cases y with
    | nan => exact hy.elim
    | infinite t =>
      obtain ⟨rfl, -⟩ := hy
      exact ⟨rfl, Nat.le_add_right_of_le ha⟩
    | finite y => exact ⟨rfl, Nat.le_add_right_of_le ha⟩
  | finite x =>
    cases y with
    | nan => exact hy.elim
    | infinite t => exact ⟨hy.1, Nat.le_add_left_of_le hy.2⟩
    | finite y =>
      have h : (finite x).add (finite y) = ofUnits ((x.units + y.units : Nat) : Int) := by
        simp [Number.add, Double.toInt, hx.1, hy.1]
      rw [h]
      refine counts_ofUnits ?_
      have h₁ := hx.2
      have h₂ := hy.2
      rw [Nat.add_mul]
      omega

end Number

end RecordQuery
