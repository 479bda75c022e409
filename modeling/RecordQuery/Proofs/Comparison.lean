import RecordQuery.Comparison
import RecordQuery.Proofs.Constant

/-!
# Equal constants compare alike

Equal constants are the same but for the sign of zeros (`Constant.isEqual_cases`,
`Constant.isEqual_iff_unsigned_eq`), so that every operation has one value on equal right-hand
sides: `Operation.value_compare_congr`.
-/

namespace RecordQuery

namespace Constant

/-- Equal constants are the same, numbers of one size, or arrays of equal elements. -/
theorem isEqual_cases {a b : Constant} (h : a.isEqual b = true) :
    a = b ∨ (∃ x y, a = number x ∧ b = number y ∧ x.toInt = y.toInt) ∨
      ∃ as bs, a = array as ∧ b = array bs ∧ areEqual as bs = true := by
  cases a <;> cases b <;> try contradiction
  case null.null => exact .inl rfl
  case bool.bool => exact .inl (congrArg bool (eq_of_beq h))
  case string.string => exact .inl (congrArg string (eq_of_beq h))
  case number.number x y => exact .inr (.inl ⟨x, y, rfl, rfl, Double.same_iff.1 h⟩)
  case array.array as bs => exact .inr (.inr ⟨as, bs, rfl, rfl, h⟩)
  case date.date s t =>
    left
    obtain ⟨m, hm⟩ := s
    obtain ⟨n, hn⟩ := t
    obtain rfl : m = n := eq_of_beq h
    rfl

mutual

/-- A constant is equal to both or to none of two equal constants. -/
theorem isEqual_congr : ∀ {a b : Constant} (c : Constant), a.isEqual b = true →
    c.isEqual a = c.isEqual b
  | a, b, array cs, h => by
    rcases isEqual_cases h with rfl | ⟨x, y, rfl, rfl, -⟩ | ⟨as, bs, rfl, rfl, h₁⟩
    · rfl
    · rfl
    · exact areEqual_congr cs h₁
  | a, b, number z, h => by
    rcases isEqual_cases h with rfl | ⟨x, y, rfl, rfl, h₁⟩ | ⟨as, bs, rfl, rfl, -⟩
    · rfl
    · simp [isEqual, Double.same, h₁]
    · rfl
  | a, b, null, h => by
    rcases isEqual_cases h with rfl | ⟨x, y, rfl, rfl, -⟩ | ⟨as, bs, rfl, rfl, -⟩ <;> rfl
  | a, b, bool _, h => by
    rcases isEqual_cases h with rfl | ⟨x, y, rfl, rfl, -⟩ | ⟨as, bs, rfl, rfl, -⟩ <;> rfl
  | a, b, string _, h => by
    rcases isEqual_cases h with rfl | ⟨x, y, rfl, rfl, -⟩ | ⟨as, bs, rfl, rfl, -⟩ <;> rfl
  | a, b, date _, h => by
    rcases isEqual_cases h with rfl | ⟨x, y, rfl, rfl, -⟩ | ⟨as, bs, rfl, rfl, -⟩ <;> rfl

theorem areEqual_congr : ∀ {as bs : List Constant} (cs : List Constant), areEqual as bs = true →
    areEqual cs as = areEqual cs bs
  | [], [], _, _ => rfl
  | [], _ :: _, _, h => by contradiction
  | _ :: _, [], _, h => by contradiction
  | a :: as, b :: bs, [], _ => rfl
  | a :: as, b :: bs, c :: cs, h => by
    simp only [areEqual, Bool.and_eq_true] at h ⊢
    rw [isEqual_congr c h.1, areEqual_congr cs h.2]

end

theorem any_isEqual_congr {as bs : List Constant} (h : areEqual as bs = true) (c : Constant) :
    as.any c.isEqual = bs.any c.isEqual := by
  induction as generalizing bs with
  | nil => cases bs <;> first | rfl | contradiction
  | cons a as ih =>
    cases bs with
    | nil => contradiction
    | cons b bs =>
      simp only [areEqual, Bool.and_eq_true] at h
      rw [List.any_cons, List.any_cons, isEqual_congr c h.1, ih h.2]

/-! ## Equality as identity -/

mutual

/-- The constant without the sign of any zero in it. -/
def unsigned : Constant → Constant
  | number x => number x.unsignedZero
  | array items => array (unsignedEach items)
  | c => c

/-- The constants of a list without the signs of zeros. -/
def unsignedEach : List Constant → List Constant
  | [] => []
  | c :: cs => c.unsigned :: unsignedEach cs

end

mutual

/-- Constants are equal if they are one and the same apart from the signs of zeros. -/
theorem isEqual_iff_unsigned_eq : ∀ a b : Constant,
    a.isEqual b = true ↔ a.unsigned = b.unsigned
  | array as, b => by
    cases b with
    | array bs => rw [isEqual, unsigned, unsigned, array.injEq, areEqual_iff_unsignedEach_eq as bs]
    | _ => simp [isEqual, unsigned]
  | number x, b => by
    cases b with
    | number y => rw [isEqual, unsigned, unsigned, number.injEq, Double.unsignedZero_eq_iff]
    | _ => simp [isEqual, unsigned]
  | date s, b => by
    cases b with
    | date t =>
      obtain ⟨m, hm⟩ := s
      obtain ⟨n, hn⟩ := t
      simp [isEqual, unsigned]
    | _ => simp [isEqual, unsigned]
  | null, b => by cases b <;> simp [isEqual, unsigned]
  | bool _, b => by cases b <;> simp [isEqual, unsigned]
  | string _, b => by cases b <;> simp [isEqual, unsigned]

theorem areEqual_iff_unsignedEach_eq : ∀ as bs : List Constant,
    areEqual as bs = true ↔ unsignedEach as = unsignedEach bs
  | [], [] => iff_of_true rfl rfl
  | [], _ :: _ => iff_of_false nofun nofun
  | _ :: _, [] => iff_of_false nofun nofun
  | a :: as, b :: bs => by
    rw [areEqual, Bool.and_eq_true, isEqual_iff_unsigned_eq a b, areEqual_iff_unsignedEach_eq as bs,
      unsignedEach, unsignedEach, List.cons.injEq]

end

end Constant

namespace Operation

variable (op : Operation) {a b : Constant} (c : Constant)

theorem value_isBelow_congr_right (h : a.isEqual b = true) :
    (op.isBelow c a).value = (op.isBelow c b).value := by
  rcases Constant.isEqual_cases h with rfl | ⟨x, y, rfl, rfl, h₁⟩ | ⟨as, bs, rfl, rfl, -⟩
  · rfl
  · cases c <;> simp [isBelow, Constant.order?, Double.order, unsupported, h₁]
  · cases c <;> rfl

theorem value_isBelow_congr_left (h : a.isEqual b = true) :
    (op.isBelow a c).value = (op.isBelow b c).value := by
  rcases Constant.isEqual_cases h with rfl | ⟨x, y, rfl, rfl, h₁⟩ | ⟨as, bs, rfl, rfl, -⟩
  · rfl
  · cases c <;> simp [isBelow, Constant.order?, Double.order, unsupported, h₁]
  · cases c <;> rfl

theorem value_isMember_congr (h : a.isEqual b = true) :
    (op.isMember c a).value = (op.isMember c b).value := by
  rcases Constant.isEqual_cases h with rfl | ⟨x, y, rfl, rfl, -⟩ | ⟨as, bs, rfl, rfl, h₁⟩
  · rfl
  · rfl
  · exact Constant.any_isEqual_congr h₁ c

theorem value_isLike_congr (ignoreCase : Bool) (h : a.isEqual b = true) :
    (op.isLike ignoreCase c a).value = (op.isLike ignoreCase c b).value := by
  rcases Constant.isEqual_cases h with rfl | ⟨x, y, rfl, rfl, -⟩ | ⟨as, bs, rfl, rfl, -⟩
  · rfl
  · cases c <;> rfl
  · cases c <;> rfl

/-- An operation has one value on equal right-hand sides. -/
theorem value_compare_congr (h : a.isEqual b = true) :
    (op.compare c a).value = (op.compare c b).value := by
  have h₁ := Constant.isEqual_congr c h
  cases op with
  | other token => rfl
  | known r =>
    cases r with
    | equalTo => exact h₁
    | notEqualTo => exact congrArg (! ·) h₁
    | greaterThan => exact value_isBelow_congr_left _ c h
    | lessThan => exact value_isBelow_congr_right _ c h
    | greaterThanOrEqual =>
      simp only [compare, h₁]
      split
      · rfl
      · exact value_isBelow_congr_left _ c h
    | lessThanOrEqual =>
      simp only [compare, h₁]
      split
      · rfl
      · exact value_isBelow_congr_right _ c h
    | isIn => exact value_isMember_congr _ c h
    | like => exact value_isLike_congr _ c false h
    | caseInsensitiveLike => exact value_isLike_congr _ c true h
    | sqlLike => rfl
    | sqlCaseInsensitiveLike => rfl

end Operation

end RecordQuery
