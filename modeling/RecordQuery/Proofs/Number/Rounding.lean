import RecordQuery.Number

/-!
# Rounding depends on the ratio only

`Number.nearest` rounds a fraction of units. It gives the same number for every way of writing the
fraction (`nearest_eq_of_ratio`), is infinite from the limit on (`nearest_of_limit_le`), and zero
below half a unit (`nearest_of_two_mul_lt`). Which fractions are rounded to less than a power of two
is said by `nearestUnits_lt_two_pow_iff`.
-/

namespace RecordQuery

theorem roundHalfEven_mul_right {k : Nat} (hk : 0 < k) (n d : Nat) :
    roundHalfEven (n * k) (d * k) = roundHalfEven n d := by
  have h₁ : 2 * (n % d * k) < d * k ↔ 2 * (n % d) < d := by
    rw [← Nat.mul_assoc]
    exact Nat.mul_lt_mul_right hk
  have h₂ : d * k < 2 * (n % d * k) ↔ d < 2 * (n % d) := by
    rw [← Nat.mul_assoc]
    exact Nat.mul_lt_mul_right hk
  simp only [roundHalfEven, Nat.mul_div_mul_right n d hk, Nat.mul_mod_mul_right, h₁, h₂]

theorem nearestUnits_mul_right {k : Nat} (hk : 0 < k) (n d : Nat) :
    nearestUnits (n * k) (d * k) = nearestUnits n d := by
  simp only [nearestUnits, Nat.mul_div_mul_right n d hk]
  rw [Nat.mul_right_comm, roundHalfEven_mul_right hk]

theorem div_le_roundHalfEven (n d : Nat) : n / d ≤ roundHalfEven n d := by
  simp only [roundHalfEven]
  split
  · omega
  · split <;> omega

/-- A count keeps its leading binary digit. -/
theorem two_pow_log2_le_nearestUnits {n d : Nat} (h : n / d ≠ 0) :
    2 ^ (n / d).log2 ≤ nearestUnits n d := by
  have h₁ : (n / d).log2 - 52 ≤ (n / d).log2 := Nat.sub_le _ _
  have h₂ : 2 ^ ((n / d).log2 - ((n / d).log2 - 52)) ≤ n / d / 2 ^ ((n / d).log2 - 52) := by
    rw [Nat.le_div_iff_mul_le (Nat.two_pow_pos _), ← Nat.pow_add, Nat.sub_add_cancel h₁]
    exact Nat.log2_self_le h
  calc 2 ^ (n / d).log2
      = 2 ^ ((n / d).log2 - ((n / d).log2 - 52)) * 2 ^ ((n / d).log2 - 52) := by
        rw [← Nat.pow_add, Nat.sub_add_cancel h₁]
    _ ≤ n / d / 2 ^ ((n / d).log2 - 52) * 2 ^ ((n / d).log2 - 52) := Nat.mul_le_mul_right _ h₂
    _ = n / (d * 2 ^ ((n / d).log2 - 52)) * 2 ^ ((n / d).log2 - 52) := by
        rw [Nat.div_div_eq_div_mul]
    _ ≤ nearestUnits n d := Nat.mul_le_mul_right _ (div_le_roundHalfEven _ _)

/-- What rounding adds to a count is at most one in the last digit that is kept. -/
theorem nearestUnits_le (n d : Nat) : nearestUnits n d ≤ n / d + 2 ^ ((n / d).log2 - 52) := by
  calc nearestUnits n d
      ≤ (n / (d * 2 ^ ((n / d).log2 - 52)) + 1) * 2 ^ ((n / d).log2 - 52) :=
        Nat.mul_le_mul_right _ (roundHalfEven_le _ _)
    _ = n / d / 2 ^ ((n / d).log2 - 52) * 2 ^ ((n / d).log2 - 52) + 2 ^ ((n / d).log2 - 52) := by
        rw [← Nat.div_div_eq_div_mul, Nat.add_mul, Nat.one_mul]
    _ ≤ n / d + 2 ^ ((n / d).log2 - 52) := Nat.add_le_add_right (Nat.div_mul_le_self _ _) _

/-- Below an even number is what lies nearer to its predecessor. Half-way, rounding goes up to it. -/
theorem roundHalfEven_lt_iff {n d k : Nat} (hd : 0 < d) (hk : k % 2 = 0) :
    roundHalfEven n d < k ↔ 2 * n < (2 * k - 1) * d := by
  have h₁ : d * (n / d) + n % d = n := Nat.div_add_mod n d
  have h₂ : n % d < d := Nat.mod_lt n hd
  obtain ⟨j, rfl⟩ : ∃ j, k = 2 * j := ⟨k / 2, by omega⟩
  rcases Nat.lt_trichotomy (n / d + 1) (2 * j) with h | h | h
  · have h₃ : roundHalfEven n d < 2 * j := Nat.lt_of_le_of_lt (roundHalfEven_le n d) h
    have h₄ : d * (n / d + 1) * 2 ≤ (2 * (2 * j) - 1) * d := by
      rw [Nat.mul_comm d, Nat.mul_right_comm]
      exact Nat.mul_le_mul_right d (by omega)
    rw [Nat.mul_add] at h₄
    exact ⟨fun _ => by omega, fun _ => h₃⟩
  · have h₃ : (2 * (2 * j) - 1) * d = 2 * (d * (n / d)) + d := by
      rw [← h, Nat.mul_comm d, ← Nat.mul_assoc, ← Nat.succ_mul]
      congr 1
    simp only [roundHalfEven]
    split
    · omega
    · split <;> omega
  · have h₃ : 2 * j ≤ roundHalfEven n d := Nat.le_trans (by omega) (div_le_roundHalfEven n d)
    have h₄ : (2 * (2 * j) - 1) * d ≤ d * (n / d) * 2 := by
      rw [Nat.mul_comm d, Nat.mul_right_comm]
      exact Nat.mul_le_mul_right d (by omega)
    exact ⟨fun h₅ => by omega, fun h₅ => by omega⟩

/-- A count whose leading digit stands at `52 + e` keeps its digits down to `e`. -/
theorem nearestUnits_eq_of_log2 {n d e : Nat} (h : (n / d).log2 = 52 + e) :
    nearestUnits n d = roundHalfEven n (d * 2 ^ e) * 2 ^ e := by
  simp only [nearestUnits, h, Nat.add_sub_cancel_left]

/-- A count is rounded to less than `2 ^ (53 + e)` if it lies below the middle between this power
and the count with 53 binary digits that precedes it. -/
theorem nearestUnits_lt_two_pow_iff {n d : Nat} (hd : 0 < d) (e : Nat) :
    nearestUnits n d < 2 ^ (53 + e) ↔ 2 * n < (2 ^ 54 - 1) * (d * 2 ^ e) := by
  have h₁ : d * (n / d) + n % d = n := Nat.div_add_mod n d
  have h₂ : 2 ^ (53 + e) = 2 ^ 53 * 2 ^ e := Nat.pow_add 2 53 e
  have h₃ : 0 < 2 ^ e := Nat.two_pow_pos e
  rcases Nat.lt_or_ge (n / d) (2 ^ (52 + e)) with h | h
  · -- The leading digit stands too low for rounding to carry it up to the power.
    have h₄ : (n / d).log2 - 52 ≤ e := by
      by_cases h₅ : n / d = 0
      · simp [h₅]
      · have h₆ := (Nat.log2_lt h₅).2 h
        omega
    have h₅ : 2 ^ ((n / d).log2 - 52) ≤ 2 ^ e := Nat.pow_le_pow_right (by decide) h₄
    have h₆ := nearestUnits_le n d
    have h₇ : d * (n / d + 1) ≤ 2 ^ 52 * (d * 2 ^ e) := by
      rw [Nat.mul_left_comm, ← Nat.pow_add]
      exact Nat.mul_le_mul_left d h
    have h₈ : n % d < d := Nat.mod_lt n hd
    rw [Nat.mul_add] at h₇
    rw [Nat.pow_add] at h
    exact ⟨fun _ => by omega, fun _ => by omega⟩
  · have h₄ : n / d ≠ 0 := Nat.pos_iff_ne_zero.1 (Nat.lt_of_lt_of_le (Nat.two_pow_pos _) h)
    rcases Nat.lt_or_ge (n / d) (2 ^ (53 + e)) with h₅ | h₅
    · have h₆ : (n / d).log2 = 52 + e := by
        have h₇ := (Nat.le_log2 h₄).2 h
        have h₈ := (Nat.log2_lt h₄).2 h₅
        omega
      rw [nearestUnits_eq_of_log2 h₆, h₂, Nat.mul_lt_mul_right h₃,
        roundHalfEven_lt_iff (Nat.mul_pos hd h₃) (by decide)]
    · have h₆ : 2 ^ (53 + e) ≤ nearestUnits n d :=
        Nat.le_trans (Nat.pow_le_pow_right (by decide) ((Nat.le_log2 h₄).2 h₅))
          (two_pow_log2_le_nearestUnits h₄)
      have h₇ : 2 ^ 53 * (d * 2 ^ e) ≤ d * (n / d) := by
        rw [Nat.mul_left_comm, ← Nat.pow_add]
        exact Nat.mul_le_mul_left d h₅
      have h₈ : 0 < d * 2 ^ e := Nat.mul_pos hd h₃
      exact ⟨fun _ => by omega, fun _ => by omega⟩

theorem nearestUnits_of_two_mul_lt {n d : Nat} (h : 2 * n < d) : nearestUnits n d = 0 := by
  have h₁ : n / d = 0 := Nat.div_eq_of_lt (by omega)
  have h₂ : n % d = n := Nat.mod_eq_of_lt (by omega)
  simp [nearestUnits, roundHalfEven, h₁, h₂, h]

theorem unitsLimit_le_two_pow {k : Nat} (h : 2098 ≤ k) : unitsLimit ≤ 2 ^ k := by
  unfold unitsLimit
  exact Nat.pow_le_pow_right (by decide) h

namespace Number

theorem nearest_eq_of_units {n d n' d' : Nat} (h : nearestUnits n d = nearestUnits n' d')
    (negative : Bool) : nearest negative n d = nearest negative n' d' := by
  simp only [nearest, h]

/-- Fractions of one value are rounded to one number. -/
theorem nearest_eq_of_ratio {n d n' d' : Nat} (hd : 0 < d) (hd' : 0 < d') (h : n * d' = n' * d)
    (negative : Bool) : nearest negative n d = nearest negative n' d' := by
  apply nearest_eq_of_units
  rw [← nearestUnits_mul_right hd' n d, ← nearestUnits_mul_right hd n' d', h, Nat.mul_comm d]

theorem nearest_of_limit_le {n k : Nat} (h₁ : 2098 ≤ k) (h₂ : 2 ^ k ≤ n) (negative : Bool) :
    nearest negative n 1 = .infinite negative := by
  have h₃ : n ≠ 0 := Nat.pos_iff_ne_zero.1 (Nat.lt_of_lt_of_le (Nat.two_pow_pos k) h₂)
  have h₄ : 2 ^ k ≤ 2 ^ n.log2 := Nat.pow_le_pow_right (by decide) ((Nat.le_log2 h₃).2 h₂)
  have h₅ := two_pow_log2_le_nearestUnits (n := n) (d := 1) (by rwa [Nat.div_one])
  rw [Nat.div_one] at h₅
  have h₆ : unitsLimit ≤ nearestUnits n 1 :=
    Nat.le_trans (unitsLimit_le_two_pow h₁) (Nat.le_trans h₄ h₅)
  simp only [nearest, dif_neg (Nat.not_lt.2 h₆)]

theorem nearest_of_two_mul_lt {n d : Nat} (h : 2 * n < d) (negative : Bool) :
    nearest negative n d = .finite (.zero negative) := by
  have h₁ := nearestUnits_of_two_mul_lt h
  have h₂ : nearestUnits n d < unitsLimit := by
    rw [h₁]
    exact (Double.zero false).representable.1
  simp only [nearest, dif_pos h₂, Number.finite.injEq]
  exact Double.ext_units rfl h₁

/-- A count that is not rounded up to the limit makes a finite number, and every other one does
not. -/
theorem exists_nearest_eq_finite_iff {n d : Nat} {negative : Bool} :
    (∃ x, nearest negative n d = .finite x) ↔ nearestUnits n d < unitsLimit := by
  unfold nearest
  split
  next h => exact ⟨fun _ => h, fun _ => ⟨_, rfl⟩⟩
  next h =>
    constructor
    · rintro ⟨x, hx⟩
      contradiction
    · intro h₁
      exact absurd h₁ h

theorem negative_of_nearest {n d : Nat} {negative : Bool} {x : Double}
    (h : nearest negative n d = .finite x) : x.negative = negative := by
  unfold nearest at h
  split at h
  · exact (Number.finite.inj h) ▸ rfl
  · contradiction

end Number

end RecordQuery
