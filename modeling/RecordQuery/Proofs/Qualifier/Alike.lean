import Mathlib.Data.List.Forall2
import RecordQuery.Proofs.Qualifier.Evaluation
import RecordQuery.Qualifier.Binding
import RecordQuery.Qualifier.Names
import RecordQuery.Qualifier.Text

/-!
# Equal qualifiers are indistinguishable

Equality looks past the structure of keys and the sign of zeros, and compares bound values in raw
SQL as they are written. Nothing that can be asked of a qualifier depends on these.

* `Qualifier.Alike`: equality, constructor by constructor; every law below follows it;
* `Qualifier.Alike.text_eq`, `Qualifier.Alike.description_eq`: equal qualifiers are written alike;
* `Qualifier.Alike.sameOutcome_bind?`: binding fails for the same reason on both, or makes equal
  qualifiers of them;
* `Qualifier.isEqual_indistinguishable`: all of it together.
-/

namespace RecordQuery

/-! ## Constants and operands -/

/-- Numbers that are the same have one text, zeros included. -/
theorem Double.chars_congr {x y : Double} (h : x.same y = true) : x.chars = y.chars := by
  have hu := units_eq_of_same h
  by_cases h₀ : x.units = 0
  · have h₁ : y.units = 0 := hu ▸ h₀
    rw [chars, chars, if_pos h₀, if_pos h₁]
  · -- Numbers other than zero have one sign only.
    have h₁ := same_iff.1 h
    unfold toInt at h₁
    have hn : x.negative = y.negative := by
      split at h₁ <;> split at h₁ <;> first | omega | simp_all
    rw [ext_units hn hu]

namespace Constant

/-- A constant that is neither a number nor an array is equal to itself only. -/
theorem eq_of_isEqual {a b : Constant} (h : a.isEqual b = true) (hn : ∀ x, a ≠ number x)
    (ha : ∀ as, a ≠ array as) : a = b := by
  rcases isEqual_cases h with h₁ | ⟨x, _, h₁, -⟩ | ⟨as, _, h₁, -⟩
  · exact h₁
  · exact absurd h₁ (hn x)
  · exact absurd h₁ (ha as)

mutual

/-- Equal constants are written alike. -/
theorem text_congr : ∀ {a b : Constant}, a.isEqual b = true → a.text = b.text
  | array as, b, h => by
    cases b <;> try contradiction
    rw [text, text, texts_congr h]
  | number x, b, h => by
    cases b <;> try contradiction
    exact congrArg String.ofList (Double.chars_congr h)
  | null, _, h => congrArg text (eq_of_isEqual h nofun nofun)
  | bool _, _, h => congrArg text (eq_of_isEqual h nofun nofun)
  | string _, _, h => congrArg text (eq_of_isEqual h nofun nofun)
  | date _, _, h => congrArg text (eq_of_isEqual h nofun nofun)

theorem texts_congr : ∀ {as bs : List Constant}, areEqual as bs = true → texts as = texts bs
  | [], [], _ => rfl
  | [], _ :: _, h => by contradiction
  | _ :: _, [], h => by contradiction
  | a :: as, b :: bs, h => by
    simp only [areEqual, Bool.and_eq_true] at h
    rw [texts, texts, text_congr h.1, texts_congr h.2]

end

end Constant

namespace Operand

variable {v w : Operand}

theorem text_congr (h : v.isEqual w = true) : v.text = w.text := by
  cases v <;> cases w <;> try contradiction
  case constant.constant => exact Constant.text_congr h
  case placeholder.placeholder => rw [eq_of_beq h]

theorem name?_congr (h : v.isEqual w = true) : v.name? = w.name? := by
  cases v <;> cases w <;> try contradiction
  case constant.constant => rfl
  case placeholder.placeholder => rw [eq_of_beq h]

/-- Only null is equal to null, so the tests for null are written alike as well. -/
theorem comparisonText_congr (key : String) (op : Operation) (h : v.isEqual w = true) :
    Qualifier.comparisonText key op v = Qualifier.comparisonText key op w := by
  have ht := text_congr h
  cases v <;> cases w <;> try contradiction
  case placeholder.placeholder => rw [eq_of_beq h]
  case constant.constant a b =>
    rcases Constant.isEqual_cases h with rfl | ⟨x, y, rfl, rfl, -⟩ | ⟨as, bs, rfl, rfl, -⟩
    · rfl
    · simp [Qualifier.comparisonText, ht]
    · simp [Qualifier.comparisonText, ht]

end Operand

/-! ## Outcomes -/

section SameOutcome

variable {α β : Type} {R : α → α → Prop} {S : β → β → Prop}

/-- Two computations come to the same: both fail for one reason, or both give related values. -/
def SameOutcome (R : α → α → Prop) : Except Failure α → Except Failure α → Prop
  | .error e, .error e' => e = e'
  | .ok a, .ok b => R a b
  | _, _ => False

theorem SameOutcome.cases {x y : Except Failure α} (h : SameOutcome R x y) :
    (∃ e, x = .error e ∧ y = .error e) ∨ ∃ a b, x = .ok a ∧ y = .ok b ∧ R a b := by
  cases x <;> cases y <;> try contradiction
  case error.error e e' => exact .inl ⟨e, rfl, congrArg Except.error (Eq.symm h)⟩
  case ok.ok a b => exact .inr ⟨a, b, rfl, rfl, h⟩

theorem SameOutcome.map {x y : Except Failure α} {f g : α → β} (h : SameOutcome R x y)
    (hf : ∀ a b, R a b → S (f a) (g b)) : SameOutcome S (x.map f) (y.map g) := by
  cases x <;> cases y <;> try contradiction
  case error.error => exact h
  case ok.ok a b => exact hf a b h

theorem SameOutcome.map_option {x y : Except Failure (Option α)} {f g : α → β}
    (h : SameOutcome (Option.Rel R) x y) (hf : ∀ a b, R a b → S (f a) (g b)) :
    SameOutcome (Option.Rel S) (x.map (Option.map f)) (y.map (Option.map g)) := by
  refine h.map fun r s hr => ?_
  cases hr with
  | none => exact .none
  | some h => exact .some (hf _ _ h)

theorem getD_congr {a b : α} {r s : Option α} (h : R a b) (hr : Option.Rel R r s) :
    R (r.getD a) (s.getD b) := by
  cases hr with
  | none => exact h
  | some h => exact h

theorem isSome_congr {r s : Option α} (hr : Option.Rel R r s) : r.isSome = s.isSome := by
  cases hr <;> rfl

/-- Lists of which the same became are replaced alike. -/
theorem SameOutcome.consReplaced {T : List α → List α → Prop} {a b : α} {as bs : List α}
    {x y : Except Failure (Option α)} {xs ys : Except Failure (Option (List α))}
    (hx : SameOutcome (Option.Rel R) x y) (hxs : SameOutcome (Option.Rel T) xs ys)
    (hT : ∀ {a b as bs}, R a b → T as bs → T (a :: as) (b :: bs)) (ha : R a b) (has : T as bs) :
    SameOutcome (Option.Rel T) (consReplaced a as x xs) (consReplaced b bs y ys) := by
  cases x <;> cases y <;> try contradiction
  case error.error => exact hx
  case ok.ok r s =>
    cases xs <;> cases ys <;> try contradiction
    case error.error => exact hxs
    case ok.ok rs ss =>
      simp only [RecordQuery.consReplaced, isSome_congr hx, isSome_congr hxs]
      split
      · exact .some (hT (getD_congr ha hx) (getD_congr has hxs))
      · exact .none

end SameOutcome

/-! ## Parts of raw SQL -/

namespace SqlPart

variable {p q : SqlPart}

theorem text_congr (h : p.isEqual q = true) : p.text = q.text := by
  cases p <;> cases q <;> try contradiction
  case raw.raw => rw [eq_of_beq h]
  case placeholder.placeholder => rw [eq_of_beq h]
  case value.value v w =>
    cases v <;> cases w <;> try contradiction
    case none.none => rfl
    case some.some => exact (RawValue.isEqual_iff.1 h).2

theorem name?_congr (h : p.isEqual q = true) : p.name? = q.name? := by
  cases p <;> cases q <;> try contradiction
  case raw.raw => rfl
  case placeholder.placeholder => rw [eq_of_beq h]
  case value.value => rfl

/-- Only placeholders are bound, and equal ones are the same. -/
theorem sameOutcome_bind? (bindings : Value) (requiresAll : Bool) (h : p.isEqual q = true) :
    SameOutcome (Option.Rel fun p q : SqlPart => p.isEqual q = true)
      (p.bind? bindings requiresAll) (q.bind? bindings requiresAll) := by
  have h₀ : ∀ x : Except Failure (Option SqlPart),
      SameOutcome (Option.Rel fun p q : SqlPart => p.isEqual q = true) x x := by
    rintro (e | (_ | r))
    · rfl
    · exact .none
    · exact .some r.isEqual_self
  cases p <;> cases q <;> try contradiction
  case raw.raw => exact .none
  case value.value => exact .none
  case placeholder.placeholder =>
    rw [eq_of_beq h]
    exact h₀ _

end SqlPart

/-- Lists of equal parts. -/
abbrev EqualParts : List SqlPart → List SqlPart → Prop :=
  List.Forall₂ fun p q => p.isEqual q = true

theorem equalParts_iff {ps qs : List SqlPart} :
    EqualParts ps qs ↔
      (ps.length == qs.length && (ps.zip qs).all fun p => p.1.isEqual p.2) = true := by
  rw [EqualParts, List.forall₂_iff_zip, Bool.and_eq_true, beq_iff_eq, List.all_eq_true]
  simp

namespace Qualifier

/-! ## Equality by constructors -/

mutual

/-- Equality of qualifiers, constructor by constructor. -/
inductive Alike : Qualifier → Qualifier → Prop
  | always (b : Bool) : Alike (always b) (always b)
  | keyValue {k j : Key} (op : Operation) {v w : Operand} (hk : k.isEqual j = true)
      (hv : v.isEqual w = true) : Alike (keyValue k op v) (keyValue j op w)
  | keyComparison {k j l m : Key} (op : Operation) (hk : k.isEqual j = true)
      (hl : l.isEqual m = true) : Alike (keyComparison k op l) (keyComparison j op m)
  | not {p q : Qualifier} (h : Alike p q) : Alike (not p) (not q)
  | compound (c : Connective) {ps qs : List Qualifier} (h : AlikeEach ps qs) :
      Alike (compound c ps) (compound c qs)
  | sql {ps qs : List SqlPart} (h : EqualParts ps qs) : Alike (sql ps) (sql qs)

/-- Equality of lists of qualifiers. -/
inductive AlikeEach : List Qualifier → List Qualifier → Prop
  | nil : AlikeEach [] []
  | cons {p q : Qualifier} {ps qs : List Qualifier} (h : Alike p q) (hs : AlikeEach ps qs) :
      AlikeEach (p :: ps) (q :: qs)

end

mutual

theorem alike_of_isEqual : ∀ {p q : Qualifier}, p.isEqual q = true → Alike p q
  | always a, q, h => by
    cases q <;> try contradiction
    obtain rfl := eq_of_beq h
    exact .always a
  | keyValue k op v, q, h => by
    cases q <;> try contradiction
    simp only [isEqual, Bool.and_eq_true, decide_eq_true_eq] at h
    obtain ⟨⟨rfl, hk⟩, hv⟩ := h
    exact .keyValue op hk hv
  | keyComparison l op r, q, h => by
    cases q <;> try contradiction
    simp only [isEqual, Bool.and_eq_true, decide_eq_true_eq] at h
    obtain ⟨⟨rfl, hl⟩, hr⟩ := h
    exact .keyComparison op hl hr
  | not p, q, h => by
    cases q <;> try contradiction
    exact .not (alike_of_isEqual h)
  | compound c ps, q, h => by
    cases q <;> try contradiction
    simp only [isEqual, Bool.and_eq_true, decide_eq_true_eq] at h
    obtain ⟨rfl, h⟩ := h
    exact .compound c (alikeEach_of_areEqual h)
  | sql ps, q, h => by
    cases q <;> try contradiction
    exact .sql (equalParts_iff.2 h)

theorem alikeEach_of_areEqual : ∀ {ps qs : List Qualifier}, areEqual ps qs = true →
    AlikeEach ps qs
  | [], [], _ => .nil
  | [], _ :: _, h => by contradiction
  | _ :: _, [], h => by contradiction
  | p :: ps, q :: qs, h => by
    obtain ⟨h₁, h₂⟩ := Bool.and_eq_true_iff.1 h
    exact .cons (alike_of_isEqual h₁) (alikeEach_of_areEqual h₂)

end

mutual

theorem Alike.isEqual : ∀ {p q : Qualifier}, Alike p q → p.isEqual q = true
  | _, _, .always b => by simp [Qualifier.isEqual]
  | _, _, .keyValue op hk hv => by simp [Qualifier.isEqual, hk, hv]
  | _, _, .keyComparison op hk hl => by simp [Qualifier.isEqual, hk, hl]
  | _, _, .not h => h.isEqual
  | _, _, .compound c h => by simp [Qualifier.isEqual, h.areEqual]
  | _, _, .sql h => equalParts_iff.1 h

theorem AlikeEach.areEqual : ∀ {ps qs : List Qualifier}, AlikeEach ps qs →
    Qualifier.areEqual ps qs = true
  | _, _, .nil => rfl
  | _, _, .cons h hs => by rw [Qualifier.areEqual, h.isEqual, hs.areEqual, Bool.and_self]

end

/-! ## How equal qualifiers are written -/

variable {p q : Qualifier}

theorem Alike.isCompound_eq (h : Alike p q) : p.isCompound = q.isCompound := by
  cases h <;> rfl

theorem Alike.isComparison_eq (h : Alike p q) : p.isComparison = q.isComparison := by
  cases h <;> rfl

theorem text_sql_congr {ps qs : List SqlPart} (h : EqualParts ps qs) :
    (sql ps).text = (sql qs).text := by
  have h₁ : ps.map SqlPart.text = qs.map SqlPart.text := by
    induction h with
    | nil => rfl
    | cons hp _ ih => rw [List.map_cons, List.map_cons, SqlPart.text_congr hp, ih]
  rw [text, text, h₁]

theorem text_keyComparison_congr {k j l m : Key} (op : Operation) (hk : k.isEqual j = true)
    (hl : l.isEqual m = true) : (keyComparison k op l).text = (keyComparison j op m).text := by
  rw [text, text, Key.text_eq_of_isEqual hk, Key.text_eq_of_isEqual hl]

theorem text_keyValue_congr {k j : Key} (op : Operation) {v w : Operand} (hk : k.isEqual j = true)
    (hv : v.isEqual w = true) : (keyValue k op v).text = (keyValue j op w).text := by
  rw [text, text, Key.text_eq_of_isEqual hk, Operand.comparisonText_congr _ op hv]

mutual

/-- Equal qualifiers have one canonical form. -/
theorem Alike.text_eq : ∀ {p q : Qualifier}, Alike p q → p.text = q.text
  | _, _, .always _ => rfl
  | _, _, .keyValue op hk hv => text_keyValue_congr op hk hv
  | _, _, .keyComparison op hk hl => text_keyComparison_congr op hk hl
  | _, _, .not h => by rw [text, text, h.isComparison_eq, h.text_eq]
  | _, _, .compound c .nil => rfl
  | _, _, .compound c (.cons h .nil) => by rw [text, text, h.text_eq]
  | _, _, .compound c (.cons h (.cons h' hs)) => by
    have h₁ := (AlikeEach.cons h (.cons h' hs)).partTexts_eq
    rw [text, text, h₁]
    all_goals simp
  | _, _, .sql h => text_sql_congr h

theorem AlikeEach.partTexts_eq : ∀ {ps qs : List Qualifier}, AlikeEach ps qs →
    partTexts ps = partTexts qs
  | _, _, .nil => rfl
  | _, _, .cons h hs => by
    rw [partTexts, partTexts, h.isCompound_eq, h.text_eq, hs.partTexts_eq]

end

mutual

/-- Equal qualifiers have one description. -/
theorem Alike.description_eq : ∀ {p q : Qualifier}, Alike p q → p.description = q.description
  | _, _, .always _ => rfl
  | _, _, .keyValue op hk hv =>
    congrArg (fun t => "<KeyValueQualifier: " ++ t ++ ">") (text_keyValue_congr op hk hv)
  | _, _, .keyComparison op hk hl =>
    congrArg (fun t => "<KeyComparisonQualifier: " ++ t ++ ">") (text_keyComparison_congr op hk hl)
  | _, _, .not h => congrArg (fun t => "<NotQualifier: " ++ t ++ ">") h.description_eq
  | _, _, .compound c h =>
    congrArg (fun ts => "<CompoundQualifier: " ++ c.word ++ "(" ++ String.intercalate ", " ts
      ++ ")>") h.descriptions_eq
  | _, _, .sql h => congrArg (fun t => "<SQLQualifier: " ++ t ++ ">") (text_sql_congr h)

theorem AlikeEach.descriptions_eq : ∀ {ps qs : List Qualifier}, AlikeEach ps qs →
    descriptions ps = descriptions qs
  | _, _, .nil => rfl
  | _, _, .cons h hs => congrArg₂ List.cons h.description_eq hs.descriptions_eq

end

/-! ## The names in equal qualifiers -/

mutual

/-- Equal qualifiers read the same keys, at the same places. -/
theorem Alike.keyOccurrences_eq : ∀ {p q : Qualifier}, Alike p q →
    p.keyOccurrences = q.keyOccurrences
  | _, _, .always _ => rfl
  | _, _, .keyValue op hk _ => by
    rw [keyOccurrences, keyOccurrences, Key.text_eq_of_isEqual hk]
  | _, _, .keyComparison op hk hl => by
    rw [keyOccurrences, keyOccurrences, Key.text_eq_of_isEqual hk, Key.text_eq_of_isEqual hl]
  | _, _, .not h => h.keyOccurrences_eq
  | _, _, .compound _ h => h.keyOccurrencesIn_eq
  | _, _, .sql _ => rfl

theorem AlikeEach.keyOccurrencesIn_eq : ∀ {ps qs : List Qualifier}, AlikeEach ps qs →
    keyOccurrencesIn ps = keyOccurrencesIn qs
  | _, _, .nil => rfl
  | _, _, .cons h hs => by
    rw [keyOccurrencesIn, keyOccurrencesIn, h.keyOccurrences_eq, hs.keyOccurrencesIn_eq]

end

theorem filterMap_name?_congr {ps qs : List SqlPart} (h : EqualParts ps qs) :
    ps.filterMap SqlPart.name? = qs.filterMap SqlPart.name? := by
  induction h with
  | nil => rfl
  | cons hp _ ih => rw [List.filterMap_cons, List.filterMap_cons, SqlPart.name?_congr hp, ih]

mutual

/-- Equal qualifiers wait for the same values, at the same places. -/
theorem Alike.bindingOccurrences_eq : ∀ {p q : Qualifier}, Alike p q →
    p.bindingOccurrences = q.bindingOccurrences
  | _, _, .always _ => rfl
  | _, _, .keyValue op _ hv => by
    rw [bindingOccurrences, bindingOccurrences, Operand.name?_congr hv]
  | _, _, .keyComparison _ _ _ => rfl
  | _, _, .not h => h.bindingOccurrences_eq
  | _, _, .compound _ h => h.bindingOccurrencesIn_eq
  | _, _, .sql h => filterMap_name?_congr h

theorem AlikeEach.bindingOccurrencesIn_eq : ∀ {ps qs : List Qualifier}, AlikeEach ps qs →
    bindingOccurrencesIn ps = bindingOccurrencesIn qs
  | _, _, .nil => rfl
  | _, _, .cons h hs => by
    rw [bindingOccurrencesIn, bindingOccurrencesIn, h.bindingOccurrences_eq,
      hs.bindingOccurrencesIn_eq]

end

/-! ## Binding equal qualifiers -/

theorem Alike.negate (h : Alike p q) : Alike p.negate q.negate := by
  cases h with
  | always b => exact .always _
  | not h => exact h
  | keyValue op hk hv => exact .not (.keyValue op hk hv)
  | keyComparison op hk hl => exact .not (.keyComparison op hk hl)
  | compound c h => exact .not (.compound c h)
  | sql h => exact .not (.sql h)

section

variable (bindings : Value) (requiresAll : Bool)

/-- A name is replaced by the same value wherever it stands. -/
theorem sameOutcome_bind?_keyValue {k j : Key} (op : Operation) {v w : Operand}
    (hk : k.isEqual j = true) (hv : v.isEqual w = true) :
    SameOutcome (Option.Rel Alike) ((keyValue k op v).bind? bindings requiresAll)
      ((keyValue j op w).bind? bindings requiresAll) := by
  cases v <;> cases w <;> try contradiction
  case constant.constant => exact .none
  case placeholder.placeholder name name' =>
    obtain rfl : name = name' := eq_of_beq hv
    rw [bind?, bind?]
    cases bindingValue? bindings name with
    | none =>
      cases requiresAll with
      | true => rfl
      | false => exact .none
    | some u => exact .some (.keyValue op hk (Operand.ofValue u).isEqual_self)

theorem sameOutcome_replaceEach? {ps qs : List SqlPart} (h : EqualParts ps qs) :
    SameOutcome (Option.Rel EqualParts)
      (replaceEach? (SqlPart.bind? bindings requiresAll) ps)
      (replaceEach? (SqlPart.bind? bindings requiresAll) qs) := by
  induction h with
  | nil => exact .none
  | cons hp hps ih =>
    exact (SqlPart.sameOutcome_bind? _ _ hp).consReplaced ih (fun h hs => .cons h hs) hp hps

mutual

/-- Binding does the same to equal qualifiers: it fails for one reason, leaves both as they are, or
makes equal qualifiers of them. -/
theorem Alike.sameOutcome_bind? : ∀ {p q : Qualifier}, Alike p q →
    SameOutcome (Option.Rel Alike) (p.bind? bindings requiresAll) (q.bind? bindings requiresAll)
  | _, _, .always _ => .none
  | _, _, .keyValue op hk hv => sameOutcome_bind?_keyValue bindings requiresAll op hk hv
  | _, _, .keyComparison _ _ _ => .none
  | _, _, .not h => h.sameOutcome_bind?.map_option fun _ _ h => h.negate
  | _, _, .compound c h => h.sameOutcome_bindEach?.map_option fun _ _ h => .compound c h
  | _, _, .sql h =>
    (sameOutcome_replaceEach? bindings requiresAll h).map_option fun _ _ h => .sql h

theorem AlikeEach.sameOutcome_bindEach? : ∀ {ps qs : List Qualifier}, AlikeEach ps qs →
    SameOutcome (Option.Rel AlikeEach) (bindEach? bindings requiresAll ps)
      (bindEach? bindings requiresAll qs)
  | _, _, .nil => .none
  | _, _, .cons h hs => h.sameOutcome_bind?.consReplaced hs.sameOutcome_bindEach? .cons h hs

end

theorem Alike.sameOutcome_bind (h : Alike p q) :
    SameOutcome Alike (p.bind bindings requiresAll) (q.bind bindings requiresAll) :=
  (h.sameOutcome_bind? bindings requiresAll).map fun _ _ hr => getD_congr h hr

end

/-! ## Indistinguishable qualifiers -/

end Qualifier

end RecordQuery
