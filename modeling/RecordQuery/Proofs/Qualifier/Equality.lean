import RecordQuery.Proofs.Comparison
import RecordQuery.Proofs.Key
import RecordQuery.Qualifier.Basic

/-!
# Equality of qualifiers

`Qualifier.isEqual` is reflexive and symmetric, and so are the equalities of operands and of the
parts of raw SQL that it rests on. Those are transitive as well, but the equality of keys is not: a
name can be equal to two paths that are not equal to each other.

* `Qualifier.isEqual_trans_iff`: the ends of a chain of equal qualifiers are equal exactly if no key
  keeps them apart;
* `Qualifier.isEqual_equivalence`: what is left of an equivalence relation.
-/

namespace RecordQuery

theorem Operand.isEqual_self (v : Operand) : v.isEqual v = true := by
  cases v with
  | constant c => exact c.isEqual_self
  | placeholder name => simp [isEqual]

theorem Operand.isEqual_comm (v w : Operand) : v.isEqual w = w.isEqual v := by
  cases v <;> cases w <;> simp [isEqual, Bool.beq_comm, Constant.isEqual_comm]

theorem RawValue.isEqual_comm (a b : RawValue) : a.isEqual b = b.isEqual a := by
  simp [isEqual, Bool.beq_comm, eq_comm]

theorem SqlPart.isEqual_self (p : SqlPart) : p.isEqual p = true := by
  cases p with
  | raw sql => simp [isEqual]
  | placeholder name => simp [isEqual]
  | value v => cases v <;> simp [isEqual, RawValue.equalOrNull, RawValue.isEqual]

theorem SqlPart.isEqual_comm (p q : SqlPart) : p.isEqual q = q.isEqual p := by
  cases p <;> cases q <;> try rfl
  case raw.raw => simp [isEqual, Bool.beq_comm]
  case placeholder.placeholder => simp [isEqual, Bool.beq_comm]
  case value.value v w =>
    cases v <;> cases w <;> simp [isEqual, RawValue.equalOrNull, RawValue.isEqual_comm]

theorem SqlPart.allEqual_self (ps : List SqlPart) :
    (ps.length == ps.length && (ps.zip ps).all fun p => p.1.isEqual p.2) = true := by
  induction ps with
  | nil => rfl
  | cons p ps ih => simpa [isEqual_self] using ih

theorem SqlPart.allEqual_comm (ps qs : List SqlPart) :
    (ps.length == qs.length && (ps.zip qs).all fun p => p.1.isEqual p.2) =
      (qs.length == ps.length && (qs.zip ps).all fun p => p.1.isEqual p.2) := by
  induction ps generalizing qs with
  | nil => cases qs <;> rfl
  | cons p ps ih =>
    cases qs with
    | nil => rfl
    | cons q qs =>
      have h := ih qs
      simp only [List.length_cons, List.zip_cons_cons, List.all_cons, Nat.reduceBeqDiff,
        isEqual_comm p q] at h ⊢
      rw [← Bool.and_assoc, ← Bool.and_assoc, Bool.and_comm _ (q.isEqual p),
        Bool.and_comm _ (q.isEqual p), Bool.and_assoc, Bool.and_assoc, h]

namespace Qualifier

mutual

theorem isEqual_self : ∀ q : Qualifier, q.isEqual q = true
  | always b => by simp [isEqual]
  | keyValue key op v => by simp [isEqual, Key.isEqual_self, Operand.isEqual_self]
  | keyComparison left op right => by simp [isEqual, Key.isEqual_self]
  | not q => by rw [isEqual, isEqual_self q]
  | compound c parts => by simp [isEqual, areEqual_self parts]
  | sql parts => SqlPart.allEqual_self parts

theorem areEqual_self : ∀ qs : List Qualifier, areEqual qs qs = true
  | [] => rfl
  | q :: qs => by rw [areEqual, isEqual_self q, areEqual_self qs, Bool.and_self]

end

theorem decide_eq_comm {α : Type} [DecidableEq α] (a b : α) : decide (a = b) = decide (b = a) :=
  decide_eq_decide.2 eq_comm

mutual

theorem isEqual_comm : ∀ p q : Qualifier, p.isEqual q = q.isEqual p
  | not p, q => by
    cases q with
    | not q => exact isEqual_comm p q
    | _ => rfl
  | compound c ps, q => by
    cases q with
    | compound d qs => rw [isEqual, isEqual, areEqual_comm ps qs, decide_eq_comm]
    | _ => rfl
  | always b, q => by
    cases q with
    | always b' => exact Bool.beq_comm
    | _ => rfl
  | keyValue key op v, q => by
    cases q with
    | keyValue key' op' v' =>
      rw [isEqual, isEqual, decide_eq_comm, Key.isEqual_comm, Operand.isEqual_comm]
    | _ => rfl
  | keyComparison left op right, q => by
    cases q with
    | keyComparison left' op' right' =>
      rw [isEqual, isEqual, decide_eq_comm, Key.isEqual_comm left, Key.isEqual_comm right]
    | _ => rfl
  | sql ps, q => by
    cases q with
    | sql qs => exact SqlPart.allEqual_comm ps qs
    | _ => rfl

theorem areEqual_comm : ∀ ps qs : List Qualifier, areEqual ps qs = areEqual qs ps
  | [], [] => rfl
  | [], _ :: _ => rfl
  | _ :: _, [] => rfl
  | p :: ps, q :: qs => by rw [areEqual, areEqual, isEqual_comm p q, areEqual_comm ps qs]

end

end Qualifier

/-! ## Chains of equal qualifiers -/

theorem Operand.isEqual_trans {u v w : Operand} (h₁ : u.isEqual v = true)
    (h₂ : v.isEqual w = true) : u.isEqual w = true := by
  cases u <;> cases v <;> try contradiction
  case constant.constant a b =>
    cases w with
    | constant c => exact (Constant.isEqual_congr a h₂).symm.trans h₁
    | placeholder name => contradiction
  case placeholder.placeholder a b =>
    obtain rfl : a = b := eq_of_beq h₁
    exact h₂

theorem RawValue.isEqual_iff {a b : RawValue} :
    a.isEqual b = true ↔ a.kind = b.kind ∧ a.text = b.text := by
  simp [isEqual]

theorem RawValue.equalOrNull_trans {a b c : Option RawValue} (h₁ : equalOrNull a b = true)
    (h₂ : equalOrNull b c = true) : equalOrNull a c = true := by
  cases a <;> cases b <;> cases c <;> try contradiction
  case none.none.none => rfl
  case some.some.some a b c =>
    obtain ⟨hk, ht⟩ := isEqual_iff.1 h₁
    obtain ⟨hk', ht'⟩ := isEqual_iff.1 h₂
    exact isEqual_iff.2 ⟨hk.trans hk', ht.trans ht'⟩

theorem SqlPart.isEqual_trans {p q r : SqlPart} (h₁ : p.isEqual q = true)
    (h₂ : q.isEqual r = true) : p.isEqual r = true := by
  cases p <;> cases q <;> try contradiction
  case raw.raw a b =>
    obtain rfl : a = b := eq_of_beq h₁
    exact h₂
  case placeholder.placeholder a b =>
    obtain rfl : a = b := eq_of_beq h₁
    exact h₂
  case value.value a b =>
    cases r with
    | value c => exact RawValue.equalOrNull_trans h₁ h₂
    | _ => contradiction

theorem SqlPart.allEqual_trans {ps qs rs : List SqlPart}
    (h₁ : (ps.length == qs.length && (ps.zip qs).all fun p => p.1.isEqual p.2) = true)
    (h₂ : (qs.length == rs.length && (qs.zip rs).all fun p => p.1.isEqual p.2) = true) :
    (ps.length == rs.length && (ps.zip rs).all fun p => p.1.isEqual p.2) = true := by
  induction ps generalizing qs rs with
  | nil =>
    cases qs with
    | nil => exact h₂
    | cons q qs => contradiction
  | cons p ps ih =>
    cases qs with
    | nil => contradiction
    | cons q qs =>
      cases rs with
      | nil => contradiction
      | cons r rs =>
        simp only [List.length_cons, List.zip_cons_cons, List.all_cons, Nat.reduceBeqDiff,
          Bool.and_eq_true] at h₁ h₂ ih ⊢
        obtain ⟨hl, hp, hps⟩ := h₁
        obtain ⟨hl', hq, hqs⟩ := h₂
        obtain ⟨hl'', hrs⟩ := ih ⟨hl, hps⟩ ⟨hl', hqs⟩
        exact ⟨hl'', isEqual_trans hp hq, hrs⟩

namespace Qualifier

mutual

/-- The keys of a qualifier, from left to right. -/
def keys : Qualifier → List Key
  | always _ => []
  | keyValue key _ _ => [key]
  | keyComparison left _ right => [left, right]
  | not q => q.keys
  | compound _ parts => keysIn parts
  | sql _ => []

/-- The keys of the qualifiers of a list. -/
def keysIn : List Qualifier → List Key
  | [] => []
  | q :: qs => q.keys ++ keysIn qs

end

mutual

/-- Equal qualifiers have keys at the same places. -/
theorem length_keys_of_isEqual : ∀ {p q : Qualifier}, p.isEqual q = true →
    p.keys.length = q.keys.length
  | not p, q, h => by
    cases q <;> try contradiction
    next q =>
      rw [isEqual] at h
      rw [keys, keys, length_keys_of_isEqual h]
  | compound c ps, q, h => by
    cases q <;> try contradiction
    exact length_keysIn_of_areEqual (Bool.and_eq_true_iff.1 h).2
  | always _, q, h => by cases q <;> first | rfl | contradiction
  | keyValue .., q, h => by cases q <;> first | rfl | contradiction
  | keyComparison .., q, h => by cases q <;> first | rfl | contradiction
  | sql _, q, h => by cases q <;> first | rfl | contradiction

theorem length_keysIn_of_areEqual : ∀ {ps qs : List Qualifier}, areEqual ps qs = true →
    (keysIn ps).length = (keysIn qs).length
  | [], [], _ => rfl
  | [], _ :: _, h => by contradiction
  | _ :: _, [], h => by contradiction
  | p :: ps, q :: qs, h => by
    obtain ⟨h₁, h₂⟩ := Bool.and_eq_true_iff.1 h
    rw [keysIn, keysIn, List.length_append, List.length_append, length_keys_of_isEqual h₁,
      length_keysIn_of_areEqual h₂]

end

mutual

/-- The ends of a chain of equal qualifiers are equal unless there are paths of different lengths
at one place in them. -/
theorem isEqual_trans_iff : ∀ {p q r : Qualifier}, p.isEqual q = true → q.isEqual r = true →
    (p.isEqual r = true ↔ ∀ x ∈ p.keys.zip r.keys, x.1.lengthsAgree x.2 = true)
  | always a, q, r, h₁, h₂ => by
    cases q <;> try contradiction
    obtain rfl := eq_of_beq h₁
    simp [h₂, keys]
  | keyValue k op v, q, r, h₁, h₂ => by
    cases q <;> try contradiction
    cases r <;> try contradiction
    simp only [isEqual, Bool.and_eq_true, decide_eq_true_eq] at h₁ h₂
    obtain ⟨⟨rfl, hk⟩, hv⟩ := h₁
    obtain ⟨⟨rfl, hk'⟩, hv'⟩ := h₂
    simp [isEqual, keys, Operand.isEqual_trans hv hv', Key.isEqual_trans_iff hk hk']
  | keyComparison l op r, q, r', h₁, h₂ => by
    cases q <;> try contradiction
    cases r' <;> try contradiction
    simp only [isEqual, Bool.and_eq_true, decide_eq_true_eq] at h₁ h₂
    obtain ⟨⟨rfl, hl⟩, hr⟩ := h₁
    obtain ⟨⟨rfl, hl'⟩, hr'⟩ := h₂
    simp [isEqual, keys, Key.isEqual_trans_iff hl hl', Key.isEqual_trans_iff hr hr']
  | not p, q, r, h₁, h₂ => by
    cases q <;> try contradiction
    cases r <;> try contradiction
    rw [isEqual] at h₁ h₂ ⊢
    exact isEqual_trans_iff h₁ h₂
  | compound c ps, q, r, h₁, h₂ => by
    cases q <;> try contradiction
    cases r <;> try contradiction
    simp only [isEqual, Bool.and_eq_true, decide_eq_true_eq] at h₁ h₂ ⊢
    obtain ⟨rfl, h₁⟩ := h₁
    obtain ⟨rfl, h₂⟩ := h₂
    exact (and_iff_right rfl).trans (areEqual_trans_iff h₁ h₂)
  | sql ps, q, r, h₁, h₂ => by
    cases q <;> try contradiction
    cases r <;> try contradiction
    simp only [isEqual] at h₁ h₂ ⊢
    simp [SqlPart.allEqual_trans h₁ h₂, keys]

theorem areEqual_trans_iff : ∀ {ps qs rs : List Qualifier}, areEqual ps qs = true →
    areEqual qs rs = true →
    (areEqual ps rs = true ↔ ∀ x ∈ (keysIn ps).zip (keysIn rs), x.1.lengthsAgree x.2 = true)
  | [], [], rs, _, h₂ => by simp [h₂, keysIn]
  | [], _ :: _, _, h₁, _ => by contradiction
  | _ :: _, [], _, h₁, _ => by contradiction
  | _ :: _, _ :: _, [], _, h₂ => by contradiction
  | p :: ps, q :: qs, r :: rs, h₁, h₂ => by
    simp only [areEqual, Bool.and_eq_true] at h₁ h₂ ⊢
    have h₃ := (length_keys_of_isEqual h₁.1).trans (length_keys_of_isEqual h₂.1)
    rw [keysIn, keysIn, List.zip_append h₃, List.forall_mem_append, isEqual_trans_iff h₁.1 h₂.1,
      areEqual_trans_iff h₁.2 h₂.2]

end

/-- Equality of keys and equality of qualifiers are reflexive and symmetric, and a chain of equal
ones can be shortened exactly if its ends have no paths of different lengths at one place. -/
theorem isEqual_equivalence (k j l : Key) (p q r : Qualifier) :
    (k.isEqual k = true ∧ k.isEqual j = j.isEqual k ∧
      (k.isEqual j = true → j.isEqual l = true →
        (k.isEqual l = true ↔ k.lengthsAgree l = true))) ∧
    p.isEqual p = true ∧ p.isEqual q = q.isEqual p ∧
      (p.isEqual q = true → q.isEqual r = true →
        (p.isEqual r = true ↔ ∀ x ∈ p.keys.zip r.keys, x.1.lengthsAgree x.2 = true)) :=
  ⟨⟨k.isEqual_self, k.isEqual_comm j, Key.isEqual_trans_iff⟩,
    p.isEqual_self, p.isEqual_comm q, isEqual_trans_iff⟩

/-- Paths of one length are not told apart by where the dots in their names are. -/
theorem isEqual_equivalence_dots :
    let q (key : Key) (negative : Bool) : Qualifier := .compound .or
      [.not (.keyValue key (.known .isIn) (.constant (.array [.number (.zero negative), .null]))),
        .keyComparison (.name "x") (.other "~") key]
    let k : Key := .path "a.b" ["c"]
    let j : Key := .name "a.b.c"
    let l : Key := .path "a" ["b.c"]
    ((q k true).isEqual (q j false) = true ∧ (q j false).isEqual (q l true) = true) ∧
      (q k true).isEqual (q l true) = true := by
  intro q k j l
  have h₁ : (q k true).isEqual (q j false) = true := by decide
  have h₂ : (q j false).isEqual (q l true) = true := by decide
  have h₃ : ∀ x ∈ (q k true).keys.zip (q l true).keys, x.1.lengthsAgree x.2 = true := by
    simp [q, k, l, keys, keysIn, Key.lengthsAgree]
  obtain ⟨-, -, -, h⟩ := isEqual_equivalence k j l (q k true) (q j false) (q l true)
  exact ⟨⟨h₁, h₂⟩, (h h₁ h₂).2 h₃⟩

/-- Two paths of different lengths are not equal, although both are equal to one name. -/
theorem isEqual_path_name_path :
    let k : Key := .path "a" ["b", "c"]
    let j : Key := .name "a.b.c"
    let l : Key := .path "a.b" ["c"]
    let q (key : Key) : Qualifier := .keyValue key (.known .equalTo) (.constant (.string "x"))
    (k.isEqual j = true ∧ j.isEqual l = true ∧ k.isEqual l = false) ∧
      (q k).isEqual (q j) = true ∧ (q j).isEqual (q l) = true ∧ (q k).isEqual (q l) = false := by
  decide

end Qualifier

end RecordQuery
