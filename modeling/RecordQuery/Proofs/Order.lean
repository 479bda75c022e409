import RecordQuery.Comparison
import RecordQuery.Proofs.Number.Whole

/-!
# The order of constants

Constants are ordered within their kind, by a rank that is a row of whole numbers, and equality is
decided apart from the order. That the two agree rests on three facts: texts with the same code
units are the same text (`Text.units_injective`), a rounded difference has the sign of the exact one
(`Number.sign?_ofUnits`), and constants of different kinds are neither equal nor ordered.

* `Constant.order?_eq_some_iff`: the order by kinds and ranks;
* `Constant.sign?_distance?`: the sign of the distance of two constants is their order;
* `Relation.holds_coherent`: the ordering relations.
-/

namespace RecordQuery

/-! ## Code units -/

namespace Text

/-- The units of a character are not the beginning of those of another one. -/
theorem unitsOfChar_append_inj {c d : Char} {a b : List Nat}
    (h : unitsOfChar c ++ a = unitsOfChar d ++ b) : c = d ∧ a = b := by
  have hc : c.toNat < 0xD800 ∨ 0xDFFF < c.toNat ∧ c.toNat < 0x110000 := c.valid
  have hd : d.toNat < 0xD800 ∨ 0xDFFF < d.toNat ∧ d.toNat < 0x110000 := d.valid
  suffices h₁ : c.toNat = d.toNat ∧ a = b from ⟨Char.toNat_inj.1 h₁.1, h₁.2⟩
  unfold unitsOfChar at h
  split at h <;> split at h <;>
    simp only [List.cons_append, List.nil_append, List.cons.injEq] at h
  · exact h
  -- A high surrogate is no character.
  · omega
  · omega
  · exact ⟨by omega, h.2.2⟩

theorem units_injective : ∀ {a b : List Char}, units a = units b → a = b
  | [], [], _ => rfl
  | [], d :: ds, h => absurd (List.append_eq_nil_iff.1 h.symm).1 (unitsOfChar_ne_nil d)
  | c :: cs, [], h => absurd (List.append_eq_nil_iff.1 h).1 (unitsOfChar_ne_nil c)
  | c :: cs, d :: ds, h => by
    obtain ⟨rfl, h₁⟩ := unitsOfChar_append_inj h
    rw [units_injective h₁]

theorem order_eq_eq_iff {a b : String} : order a b = .eq ↔ a = b := by
  rw [order, Std.LawfulEqCmp.compare_eq_iff_eq]
  exact ⟨fun h => String.toList_injective (units_injective h), fun h => h ▸ rfl⟩

end Text

/-! ## The sign of a number -/

namespace Number

/-- The side of zero on which a number lies. -/
def sign? : Number → Option Ordering
  | .nan => none
  | .infinite negative => some (if negative then .lt else .gt)
  | .finite x => some (compare x.toInt 0)

theorem sign?_nearest {n d : Nat} (h : nearestUnits n d ≠ 0) (negative : Bool) :
    (nearest negative n d).sign? = some (if negative then .lt else .gt) := by
  rw [nearest]
  split
  · cases negative
    · simp only [sign?, Double.toInt, Bool.false_eq_true, if_false, Option.some.injEq,
        Int.compare_eq_gt]
      omega
    · simp only [sign?, Double.toInt, if_true, Option.some.injEq, Int.compare_eq_lt]
      omega
  · rfl

/-- Rounding keeps a count on its side of zero: what is not zero is at least one unit. -/
theorem sign?_ofUnits (n : Int) : (ofUnits n).sign? = some (compare n 0) := by
  by_cases hn : n = 0
  · subst hn
    decide +kernel
  · have h₁ := two_pow_log2_le_nearestUnits (n := n.natAbs) (d := 1) (by omega)
    have h₂ := Nat.two_pow_pos (n.natAbs / 1).log2
    rw [ofUnits, sign?_nearest (by omega)]
    rcases Int.lt_or_gt_of_ne hn with h | h
    · simp [h, Int.compare_eq_lt.2 h]
    · simp [Int.not_lt.2 (Int.le_of_lt h), Int.compare_eq_gt.2 h]

theorem sign?_ofInt (n : Int) : (ofInt n).sign? = some (compare n 0) := by
  have h : (0 : Int) < unitsPerOne := Int.natCast_pos.2 unitsPerOne_pos
  rw [ofInt, sign?_ofUnits]
  rcases Int.lt_trichotomy n 0 with hn | rfl | hn
  · rw [Int.compare_eq_lt.2 hn, Int.compare_eq_lt.2 (Int.mul_neg_of_neg_of_pos hn h)]
  · rw [Int.zero_mul]
  · rw [Int.compare_eq_gt.2 hn, Int.compare_eq_gt.2 (Int.mul_pos hn h)]

end Number

/-! ## The rank of a constant -/

namespace Constant

/-- The rank of a constant among null and the constants of its kind. Arrays have one rank. -/
def rank : Constant → Option (List Int)
  | null => none
  | bool b => some [(b.toNat : Int)]
  | number x => some [x.toInt]
  | string s => some ((Text.units s.toList).map Int.ofNat)
  | date t => some [t.millis]
  | array _ => some []

/-- The constants of its kind are ordered. -/
def isOrdered : Constant → Bool
  | null => false
  | array _ => false
  | _ => true

theorem compare_singleton (m n : Int) : compare (some [m]) (some [n]) = compare m n := by
  change compare [m] [n] = compare m n
  rw [List.compare_cons_cons]
  exact Ordering.then_eq

theorem compare_map_ofNat (as bs : List Nat) :
    compare (some (as.map Int.ofNat)) (some (bs.map Int.ofNat)) = compare as bs := by
  change compare (as.map Int.ofNat) (bs.map Int.ofNat) = compare as bs
  induction as generalizing bs with
  | nil => cases bs <;> rfl
  | cons a as ih =>
    cases bs with
    | nil => rfl
    | cons b bs =>
      have h : compare (Int.ofNat a) (Int.ofNat b) = compare a b := by
        simp only [compare, compareOfLessAndEq, Int.ofNat_eq_natCast, Int.ofNat_lt, Int.ofNat_inj]
      rw [List.map_cons, List.map_cons, List.compare_cons_cons, List.compare_cons_cons, ih, h]

/-- Constants of one ordered kind are ordered by their ranks, and no others are. -/
theorem order?_eq_some_iff {a b : Constant} {o : Ordering} :
    a.order? b = some o ↔ a.kind = b.kind ∧ a.isOrdered = true ∧ compare a.rank b.rank = o := by
  cases a <;> cases b <;> simp [order?, kind, isOrdered, rank, compare_singleton]
  case number.number => rfl
  case string.string => rw [compare_map_ofNat, Text.order]
  case bool.bool b c => cases b <;> cases c <;> rfl

theorem ordered_cases {a b : Constant} (hk : a.kind = b.kind) (ho : a.isOrdered = true) :
    (∃ p q, a = bool p ∧ b = bool q) ∨ (∃ x y, a = number x ∧ b = number y) ∨
      (∃ s t, a = string s ∧ b = string t) ∨ ∃ s t, a = date s ∧ b = date t := by
  cases a <;> cases b <;> simp_all [kind, isOrdered]

/-- Constants of one ordered kind are equal if neither is below the other one. -/
theorem isEqual_eq_order? {a b : Constant} (hk : a.kind = b.kind) (ho : a.isOrdered = true) :
    a.isEqual b = (a.order? b == some .eq) := by
  rw [Bool.eq_iff_iff, beq_iff_eq]
  rcases ordered_cases hk ho with ⟨p, q, rfl, rfl⟩ | ⟨x, y, rfl, rfl⟩ | ⟨s, t, rfl, rfl⟩ |
    ⟨⟨m, _⟩, ⟨n, _⟩, rfl, rfl⟩
  · cases p <;> cases q <;> decide
  · simp [isEqual, order?, Double.same, Double.order]
  · simp [isEqual, order?, Text.order_eq_eq_iff]
  · simp [isEqual, order?]

theorem sign?_signOf (o : Ordering) : (signOf o).sign? = some o := by
  cases o <;> exact Number.sign?_ofInt _

theorem compare_sub_zero (m n : Int) : compare (m - n) 0 = compare m n := by
  have h₁ : m - n < 0 ↔ m < n := by omega
  have h₂ : m - n = 0 ↔ m = n := by omega
  simp only [compare, compareOfLessAndEq, h₁, h₂]

/-- How far a constant lies above another one has the sign of their order. -/
theorem sign?_distance? (a b : Constant) : (a.distance? b).bind Number.sign? = a.order? b := by
  cases a <;> cases b <;> try rfl
  case number.number x y =>
    exact (Number.sign?_ofUnits _).trans (congrArg some (compare_sub_zero _ _))
  case string.string s t => exact sign?_signOf _
  case bool.bool p q => cases p <;> cases q <;> exact Number.sign?_ofInt _
  case date.date s t =>
    exact (Number.sign?_ofInt _).trans (congrArg some (compare_sub_zero _ _))

theorem order?_swap (a b : Constant) : b.order? a = (a.order? b).map Ordering.swap := by
  cases a <;> cases b <;> try rfl
  case bool.bool p q => cases p <;> cases q <;> rfl
  case number.number x y =>
    exact congrArg some (Std.OrientedCmp.eq_swap : compare y.toInt x.toInt = _)
  case string.string s t =>
    exact congrArg some (Std.OrientedCmp.eq_swap : compare (Text.units t.toList) _ = _)
  case date.date s t => exact congrArg some (Std.OrientedCmp.eq_swap : compare t.millis _ = _)

theorem order?_self_ne_lt (a : Constant) : a.order? a ≠ some .lt := by
  simp [order?_eq_some_iff]

theorem order?_eq_lt_trans {a b c : Constant} (h₁ : a.order? b = some .lt)
    (h₂ : b.order? c = some .lt) : a.order? c = some .lt := by
  rw [order?_eq_some_iff] at h₁ h₂ ⊢
  exact ⟨h₁.1.trans h₂.1, h₁.2.1, Std.TransCmp.lt_trans h₁.2.2 h₂.2.2⟩

end Constant

/-! ## The ordering relations -/

theorem Operation.value_isBelow (op : Operation) (a b : Constant) :
    (op.isBelow a b).value = (a.order? b == some .lt) := by
  cases a <;> cases b <;> rfl

namespace Relation

/-- The relation holds between two constants. -/
def holds (r : Relation) (a b : Constant) : Bool :=
  ((Operation.known r).compare a b).value

variable (a b c : Constant)

theorem holds_lessThan : holds .lessThan a b = (a.order? b == some .lt) :=
  Operation.value_isBelow _ a b

theorem holds_greaterThan : holds .greaterThan a b = holds .lessThan b a := by
  rw [holds_lessThan]
  exact Operation.value_isBelow _ b a

theorem holds_lessThanOrEqual :
    holds .lessThanOrEqual a b = (holds .equalTo a b || holds .lessThan a b) := by
  rw [holds_lessThan]
  simp only [holds, Operation.compare]
  cases a.isEqual b
  · exact Operation.value_isBelow _ a b
  · rfl

theorem holds_greaterThanOrEqual :
    holds .greaterThanOrEqual a b = (holds .equalTo a b || holds .greaterThan a b) := by
  rw [holds_greaterThan, holds_lessThan]
  simp only [holds, Operation.compare]
  cases a.isEqual b
  · exact Operation.value_isBelow _ b a
  · rfl

variable {a b c}

theorem holds_lessThan_iff :
    holds .lessThan a b = true ↔ ∃ d, a.distance? b = some d ∧ d.sign? = some .lt := by
  rw [holds_lessThan, beq_iff_eq, ← Constant.sign?_distance?, Option.bind_eq_some_iff]

theorem holds_lessThan_trans (h₁ : holds .lessThan a b = true) (h₂ : holds .lessThan b c = true) :
    holds .lessThan a c = true := by
  rw [holds_lessThan, beq_iff_eq] at h₁ h₂ ⊢
  exact Constant.order?_eq_lt_trans h₁ h₂

/-- Of two constants of one ordered kind the first is less than, equal to, or greater than the
second, and not two of these. -/
theorem count_holds (hk : a.kind = b.kind) (ho : a.isOrdered = true) :
    [holds .lessThan a b, holds .equalTo a b, holds .greaterThan a b].count true = 1 := by
  have h₁ : a.order? b = some (compare a.rank b.rank) :=
    Constant.order?_eq_some_iff.2 ⟨hk, ho, rfl⟩
  have h₂ : b.order? a = some (compare a.rank b.rank).swap := by
    rw [Constant.order?_swap, h₁, Option.map_some]
  have h₃ : holds .equalTo a b = (a.order? b == some .eq) := Constant.isEqual_eq_order? hk ho
  rw [h₃, holds_greaterThan, holds_lessThan, holds_lessThan, h₁, h₂]
  cases compare a.rank b.rank <;> rfl

variable (a b c)

/-- The ordering relations agree with each other and with equality, on constants of all kinds: one
constant is less than another one exactly if the distance between them is negative. -/
theorem holds_coherent :
    (holds .lessThan a b = true ↔ ∃ d, a.distance? b = some d ∧ d.sign? = some .lt) ∧
      holds .lessThan a a = false ∧
      (holds .lessThan a b = true → holds .lessThan b c = true → holds .lessThan a c = true) ∧
      holds .lessThan a b = holds .greaterThan b a ∧
      holds .lessThanOrEqual a b = (holds .lessThan a b || holds .equalTo a b) ∧
      holds .greaterThanOrEqual a b = (holds .greaterThan a b || holds .equalTo a b) ∧
      holds .notEqualTo a b = !holds .equalTo a b ∧
      (a.kind = b.kind → a.isOrdered = true →
        [holds .lessThan a b, holds .equalTo a b, holds .greaterThan a b].count true = 1) := by
  refine ⟨holds_lessThan_iff, ?_, holds_lessThan_trans, (holds_greaterThan b a).symm, ?_, ?_, rfl,
    count_holds⟩
  · rw [holds_lessThan, beq_eq_false_iff_ne]
    exact a.order?_self_ne_lt
  · rw [holds_lessThanOrEqual, Bool.or_comm]
  · rw [holds_greaterThanOrEqual, Bool.or_comm]

/-- Texts are ordered by their code units: a character that takes two of them is below `U+FF5E`,
although its code point is above. -/
theorem holds_coherent_units :
    let a : Constant := .string "😀"
    let b : Constant := .string "～"
    let c : Constant := .string "～a"
    (holds .lessThan a b = true ∧ holds .lessThan b c = true ∧ a.kind = b.kind ∧
        a.isOrdered = true) ∧
      holds .lessThan a c = true ∧
        [holds .lessThan a b, holds .equalTo a b, holds .greaterThan a b].count true = 1 := by
  intro a b c
  have h₁ : holds .lessThan a b = true := by decide
  have h₂ : holds .lessThan b c = true := by decide
  obtain ⟨-, -, h₃, -, -, -, -, h₄⟩ := holds_coherent a b c
  exact ⟨⟨h₁, h₂, rfl, rfl⟩, h₃ h₁ h₂, h₄ rfl rfl⟩

end Relation

end RecordQuery
