import RecordQuery.Constant
import RecordQuery.Proofs.Number.Written

/-!
# Constants as they are read back, and among the values

A constant is a value that normalization leaves alone, and normalization always ends in one
(`Value.normalize_projects`).

`Constant.reread` is what the written form of a constant stands for: a date has become its text, and
zero has lost its sign. The written form itself stays (`text_reread`), and so does the constant, as
far as equality can tell, if it is an atom or an array of atoms (`isEqual_reread`).
-/

namespace RecordQuery

namespace Constant

/-- The constant is no array. -/
def isScalar : Constant → Bool
  | array _ => false
  | _ => true

/-- The constant is no array of arrays. -/
def isFlat : Constant → Bool
  | array items => items.all isScalar
  | _ => true

/-- The constant is null, a truth value, a number or a text. -/
def isAtom : Constant → Bool
  | date _ => false
  | array _ => false
  | _ => true

/-- The constant is an atom or an array of atoms. -/
def isPlain : Constant → Bool
  | array items => items.all isAtom
  | c => c.isAtom

theorem isScalar_of_isAtom {c : Constant} (h : c.isAtom = true) : c.isScalar = true := by
  cases c <;> first | rfl | contradiction

theorem isFlat_of_isPlain {c : Constant} (h : c.isPlain = true) : c.isFlat = true := by
  cases c with
  | array items =>
    have h₁ : ∀ d ∈ items, d.isAtom = true := List.all_eq_true.1 h
    exact List.all_eq_true.2 fun d hd => isScalar_of_isAtom (h₁ d hd)
  | _ => rfl

mutual

/-- The constant that the written form of a constant is read as. -/
def reread : Constant → Constant
  | number x => number x.unsignedZero
  | date t => string t.isoText
  | array items => array (rereadEach items)
  | c => c

/-- The constants that the written forms of a list are read as. -/
def rereadEach : List Constant → List Constant
  | [] => []
  | c :: cs => c.reread :: rereadEach cs

end

theorem rereadEach_eq_map (cs : List Constant) : rereadEach cs = cs.map reread := by
  induction cs with
  | nil => rfl
  | cons c cs ih => simp [rereadEach, ih]

mutual

/-- Reading a written constant does not change how it is written. -/
theorem text_reread : ∀ c : Constant, c.reread.text = c.text
  | null => rfl
  | bool _ => rfl
  | number x => congrArg String.ofList (Double.chars_unsignedZero x)
  | string _ => rfl
  | date _ => rfl
  | array items => by
    rw [reread, text, text, texts_rereadEach items]

theorem texts_rereadEach : ∀ cs : List Constant, texts (rereadEach cs) = texts cs
  | [] => rfl
  | c :: cs => by
    rw [rereadEach, texts, texts, text_reread c, texts_rereadEach cs]

end

mutual

/-- A constant is the constant that it stands for as a value. -/
theorem normalize_toValue : ∀ c : Constant, c.toValue.normalize = c
  | null => rfl
  | bool _ => rfl
  | number _ => rfl
  | string _ => rfl
  | date _ => rfl
  | array items => by
    rw [toValue, Value.normalize, normalizeEach_toValues items]

theorem normalizeEach_toValues : ∀ cs : List Constant, Value.normalizeEach (toValues cs) = cs
  | [] => rfl
  | c :: cs => by
    rw [toValues, Value.normalizeEach, normalize_toValue c, normalizeEach_toValues cs]

end

mutual

theorem isConstant_toValue : ∀ c : Constant, c.toValue.isConstant = true
  | null => rfl
  | bool _ => rfl
  | number _ => rfl
  | string _ => rfl
  | date _ => rfl
  | array items => allConstant_toValues items

theorem allConstant_toValues : ∀ cs : List Constant, Value.allConstant (toValues cs) = true
  | [] => rfl
  | c :: cs => by
    rw [toValues, Value.allConstant, isConstant_toValue c, allConstant_toValues cs, Bool.and_self]

end

/-! ## Equality -/

mutual

theorem isEqual_self : ∀ c : Constant, c.isEqual c = true
  | null => rfl
  | bool b => by simp [isEqual]
  | number x => x.same_self
  | string s => by simp [isEqual]
  | date t => by simp [isEqual]
  | array items => areEqual_self items

theorem areEqual_self : ∀ cs : List Constant, areEqual cs cs = true
  | [] => rfl
  | c :: cs => by rw [areEqual, isEqual_self c, areEqual_self cs, Bool.and_self]

end

mutual

theorem isEqual_comm : ∀ a b : Constant, a.isEqual b = b.isEqual a
  | array as, b => by
    cases b with
    | array bs => exact areEqual_comm as bs
    | _ => rfl
  | null, b => by cases b <;> rfl
  | bool _, b => by cases b <;> simp [isEqual, Bool.beq_comm]
  | number _, b => by cases b <;> simp [isEqual, Double.same, Bool.beq_comm]
  | string _, b => by cases b <;> simp [isEqual, Bool.beq_comm]
  | date _, b => by cases b <;> simp [isEqual, Bool.beq_comm]

theorem areEqual_comm : ∀ as bs : List Constant, areEqual as bs = areEqual bs as
  | [], [] => rfl
  | [], _ :: _ => rfl
  | _ :: _, [] => rfl
  | a :: as, b :: bs => by rw [areEqual, areEqual, isEqual_comm a b, areEqual_comm as bs]

end

theorem isEqual_reread_of_isAtom {c : Constant} (h : c.isAtom = true) :
    c.isEqual c.reread = true := by
  cases c with
  | number x =>
    rw [reread, isEqual, Double.same_iff]
    exact x.toInt_unsignedZero.symm
  | date t => contradiction
  | array items => contradiction
  | null => rfl
  | bool b => exact isEqual_self _
  | string s => exact isEqual_self _

theorem areEqual_rereadEach {cs : List Constant} (h : ∀ c ∈ cs, c.isAtom = true) :
    areEqual cs (rereadEach cs) = true := by
  induction cs with
  | nil => rfl
  | cons c cs ih =>
    rw [rereadEach, areEqual, isEqual_reread_of_isAtom (h c (by simp)),
      ih fun d hd => h d (List.mem_cons_of_mem _ hd), Bool.and_self]

/-- A constant without dates and nested arrays is read back as an equal one. -/
theorem isEqual_reread {c : Constant} (h : c.isPlain = true) : c.isEqual c.reread = true := by
  cases c with
  | array items => exact areEqual_rereadEach (List.all_eq_true.1 h)
  | _ => exact isEqual_reread_of_isAtom h

end Constant

/-! ## Constants among the values -/

namespace Value

mutual

/-- A constant as it stands is what it is normalized to. -/
theorem toValue_normalize : ∀ v : Value, v.isConstant = true → v.normalize.toValue = v
  | null, _ => rfl
  | bool _, _ => rfl
  | string _, _ => rfl
  | number (.finite _), _ => rfl
  | date (some _), _ => rfl
  | array items, h => by
    rw [normalize, Constant.toValue, toValues_normalizeEach items h]

theorem toValues_normalizeEach : ∀ vs : List Value, allConstant vs = true →
    Constant.toValues (normalizeEach vs) = vs
  | [], _ => rfl
  | v :: vs, h => by
    rw [allConstant, Bool.and_eq_true] at h
    rw [normalizeEach, Constant.toValues, toValue_normalize v h.1, toValues_normalizeEach vs h.2]

end

/-- Normalization projects the values onto the constants: what comes out of it is one and stays as
it is if it is normalized again, and the constants are the values that do not change at all. -/
theorem normalize_projects (v : Value) :
    v.normalize.toValue.isConstant = true ∧ v.normalize.toValue.normalize = v.normalize ∧
      (v.isConstant = true ↔ v.normalize.toValue = v) := by
  have h := v.normalize.isConstant_toValue
  refine ⟨h, v.normalize.normalize_toValue, v.toValue_normalize, fun hv => ?_⟩
  rwa [hv] at h

end Value

end RecordQuery
