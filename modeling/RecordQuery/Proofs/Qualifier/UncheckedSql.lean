import RecordQuery.Proofs.Qualifier.NormalForm

/-!
# Evaluating around raw SQL

Raw SQL cannot be checked in memory, so each of it may be true or false (`Qualifier.CanBe`). An
evaluation takes it for false where it comes to it. That is on the safe side in a conjunction or a
disjunction, but a negation around one of these makes a match of it.

* `Qualifier.holds_conjoin`: a conjunction holds exactly if both sides do, and raw SQL never does;
* `Qualifier.canBe_iff`: what a qualifier can be is settled by its three-valued value, in which raw
  SQL is unknown (`Qualifier.certain?`);
* `Qualifier.canBe_of_value?`: when a qualifier that evaluates to true cannot be false;
* `Qualifier.canBe_false_of_negation`: a match that raw SQL can refute.
-/

namespace RecordQuery

/-- The truth value of two joined ones, as far as it is known. -/
def Connective.combine? (c : Connective) : Option Bool → Option Bool → Option Bool
  | some a, some b => some (c.apply a b)
  | some a, none => if a = c.unit then none else some a
  | none, some b => if b = c.unit then none else some b
  | none, none => none

/-- What two joined truth values can be together. -/
theorem Connective.exists_apply_iff (c : Connective) (x y : Option Bool) (a : Bool) :
    (∃ s t, (∀ b ∈ x, s = b) ∧ (∀ b ∈ y, t = b) ∧ a = c.apply s t) ↔
      ∀ b ∈ c.combine? x y, a = b := by
  rcases x with _ | _ | _ <;> rcases y with _ | _ | _ <;> cases c <;> cases a <;>
    simp [combine?, apply, unit]

namespace Qualifier

variable (object : Value)

/-! ## Conjunctions -/

theorem value_evaluateParts_and (qs : List Qualifier) :
    (evaluateParts object .and qs).value = qs.all (·.holds object) := by
  induction qs with
  | nil => rfl
  | cons q qs ih =>
    rw [value_evaluateParts_cons, List.all_cons, ih, holds]
    cases q.value? object <;> rfl

theorem holds_compound_and (qs : List Qualifier) :
    (compound .and qs).holds object = qs.all (·.holds object) := by
  rw [holds, value?_compound, Option.getD_some, value_evaluateParts_and]

theorem all_holds_partsFor (q : Qualifier) :
    (q.partsFor .and).all (·.holds object) = q.holds object := by
  have h : [q].all (·.holds object) = q.holds object := by simp
  cases q with
  | compound d parts =>
    rw [partsFor]
    split
    · next hd => rw [hd, holds_compound_and]
    · exact h
  | _ => exact h

/-- A conjunction holds exactly if both sides do, however it is simplified. -/
theorem holds_conjoin (q p : Qualifier) :
    (q.conjoin p).holds object = (q.holds object && p.holds object) := by
  have h (b : Bool) : (always b).holds object = b := rfl
  rw [conjoin]
  rcases join_cases .and q p with ⟨b, rfl, h₁⟩ | ⟨b, rfl, h₁⟩ | ⟨-, -, h₁⟩
  · cases b <;> simp [h₁, h, Connective.unit]
  · cases b <;> simp [h₁, h, Connective.unit]
  · rw [h₁, holds_compound_and, List.all_append, all_holds_partsFor, all_holds_partsFor]

/-! ## What a qualifier can be -/

/-- A truth value that the qualifier can have on an object if each raw SQL in it can be true or
false, whatever the others are. -/
inductive CanBe : Qualifier → Bool → Prop
  | always (b : Bool) : CanBe (always b) b
  | comparison {q : Qualifier} : q.isComparison = true → CanBe q (q.holds object)
  | sql (parts : List SqlPart) (b : Bool) : CanBe (sql parts) b
  | not {q : Qualifier} {b : Bool} : CanBe q b → CanBe (not q) (!b)
  | nil (c : Connective) : CanBe (compound c []) c.unit
  | cons {c : Connective} {q : Qualifier} {qs : List Qualifier} {a b : Bool} :
    CanBe q a → CanBe (compound c qs) b → CanBe (compound c (q :: qs)) (c.apply a b)

mutual

/-- The truth value of the qualifier on an object, as far as it is known without raw SQL. -/
def certain? : Qualifier → Option Bool
  | always b => some b
  | not q => q.certain?.map (! ·)
  | compound c parts => certainIn? c parts
  | sql _ => none
  | q => some (q.holds object)

/-- The truth value that a connective makes of a list, as far as it is known without raw SQL. -/
def certainIn? (c : Connective) : List Qualifier → Option Bool
  | [] => some c.unit
  | q :: qs => c.combine? q.certain? (certainIn? c qs)

end

variable {object}

theorem canBe_comparison_iff {q : Qualifier} (h : q.isComparison = true) {a : Bool} :
    q.CanBe object a ↔ a = q.holds object := by
  constructor
  · intro h₁
    cases h₁ <;> first | rfl | contradiction
  · rintro rfl
    exact .comparison h

theorem canBe_not_iff {q : Qualifier} {a : Bool} :
    (not q).CanBe object a ↔ q.CanBe object (!a) := by
  constructor
  · intro h
    cases h with
    | comparison h => contradiction
    | not h => rwa [Bool.not_not]
  · intro h
    rw [← Bool.not_not a]
    exact .not h

theorem canBe_cons_iff {c : Connective} {q : Qualifier} {qs : List Qualifier} {a : Bool} :
    (compound c (q :: qs)).CanBe object a ↔
      ∃ s t, q.CanBe object s ∧ (compound c qs).CanBe object t ∧ a = c.apply s t := by
  constructor
  · intro h
    cases h with
    | comparison h => contradiction
    | cons h₁ h₂ => exact ⟨_, _, h₁, h₂, rfl⟩
  · rintro ⟨s, t, h₁, h₂, rfl⟩
    exact .cons h₁ h₂

mutual

/-- A qualifier can be anything that what is known of it leaves open. -/
theorem canBe_iff : ∀ {q : Qualifier} {a : Bool},
    q.CanBe object a ↔ ∀ b ∈ q.certain? object, a = b
  | always b, a => by
    simp only [certain?, Option.mem_some_iff, forall_eq']
    constructor
    · intro h
      cases h <;> rfl
    · rintro rfl
      exact .always _
  | keyValue .., a => by simpa [certain?] using canBe_comparison_iff rfl
  | keyComparison .., a => by simpa [certain?] using canBe_comparison_iff rfl
  | sql parts, a => by simpa [certain?] using .sql parts a
  | not q, a => by
    rw [canBe_not_iff, canBe_iff, certain?]
    cases q.certain? object with
    | none => simp
    | some b => cases a <;> cases b <;> simp
  | compound c parts, a => canBe_compound_iff c

theorem canBe_compound_iff (c : Connective) : ∀ {qs : List Qualifier} {a : Bool},
    (compound c qs).CanBe object a ↔ ∀ b ∈ certainIn? object c qs, a = b
  | [], a => by
    simp only [certainIn?, Option.mem_some_iff, forall_eq']
    constructor
    · intro h
      cases h <;> rfl
    · rintro rfl
      exact .nil c
  | q :: qs, a => by
    rw [canBe_cons_iff, certainIn?, ← c.exists_apply_iff]
    simp only [canBe_iff (q := q), canBe_compound_iff c]

end

/-- A qualifier is certainly true exactly if it cannot be false. -/
theorem certain?_eq_some_true_iff {q : Qualifier} :
    q.certain? object = some true ↔ ∀ a, q.CanBe object a → a = true := by
  simp only [canBe_iff]
  cases q.certain? object with
  | none => simp
  | some b => simp

/-! ## What an evaluation makes of raw SQL -/

section

variable (object)

mutual

/-- What every negation that the evaluation comes to negates, negations inside it aside, is raw SQL
itself, or holds, or is certainly false. -/
def negatesCertain : Qualifier → Bool
  | not q => q.value? object != some false || q.certain? object == some false
  | compound c parts => negatesCertainIn c parts
  | _ => true

/-- The same of the parts that the evaluation of a compound comes to. -/
def negatesCertainIn (c : Connective) : List Qualifier → Bool
  | [] => true
  | q :: qs => q.negatesCertain && (q.value? object != some c.unit || negatesCertainIn c qs)

end

end

mutual

/-- If all that is negated is certain, a qualifier that evaluates to true is certainly true. -/
theorem canBe_of_negatesCertain : ∀ {q : Qualifier} {a : Bool},
    q.negatesCertain object = true → q.value? object = some true → q.CanBe object a → a = true
  | always b, a, _, hv, ha => by
    obtain rfl : b = true := Option.some.inj hv
    exact canBe_iff.1 ha true rfl
  | keyValue .., a, _, hv, ha => by
    rw [value?_of_isComparison object rfl] at hv
    exact ((canBe_comparison_iff rfl).1 ha).trans (Option.some.inj hv)
  | keyComparison .., a, _, hv, ha => by
    rw [value?_of_isComparison object rfl] at hv
    exact ((canBe_comparison_iff rfl).1 ha).trans (Option.some.inj hv)
  | sql _, a, _, hv, _ => by contradiction
  | not q, a, hn, hv, ha => by
    have h₁ : q.value? object = some false := by
      rw [value?_not] at hv
      cases h : q.value? object with
      | none => simp [h] at hv
      | some b => simpa [h] using hv
    have h₂ : q.certain? object = some false := by simpa [negatesCertain, h₁] using hn
    simpa using canBe_iff.1 (canBe_not_iff.1 ha) false h₂
  | compound c parts, a, hn, hv, ha =>
    canBe_of_negatesCertainIn c hn (Option.some.inj hv) ha

theorem canBe_of_negatesCertainIn (c : Connective) : ∀ {qs : List Qualifier} {a : Bool},
    negatesCertainIn object c qs = true → (evaluateParts object c qs).value = true →
      (compound c qs).CanBe object a → a = true
  | [], a, _, hv, ha => (canBe_compound_iff c).1 ha true (congrArg some hv)
  | q :: qs, a, hn, hv, ha => by
    obtain ⟨s, t, hs, ht, rfl⟩ := canBe_cons_iff.1 ha
    rw [negatesCertainIn, Bool.and_eq_true] at hn
    obtain ⟨h₁, h₂⟩ := hn
    rw [value_evaluateParts_cons] at hv
    cases hq : q.value? object with
    | none => simp [hq] at hv
    | some b =>
      rw [hq, Option.map_some, Option.getD_some] at hv
      cases c with
      | and =>
        obtain ⟨rfl, hv⟩ := Bool.and_eq_true_iff.1 hv
        have h₃ : negatesCertainIn object .and qs = true := by simpa [hq, Connective.unit] using h₂
        rw [canBe_of_negatesCertain h₁ hq hs, canBe_of_negatesCertainIn .and h₃ hv ht]
        rfl
      | or =>
        cases b with
        | true =>
          -- the part settles the disjunction, and what follows it is not looked at
          rw [canBe_of_negatesCertain h₁ hq hs]
          rfl
        | false =>
          have h₃ : negatesCertainIn object .or qs = true := by simpa [hq, Connective.unit] using h₂
          rw [canBe_of_negatesCertainIn .or h₃ hv ht]
          exact Bool.or_true s

end

mutual

/-- Without raw SQL the value is known. -/
theorem certain?_eq_value? : ∀ {q : Qualifier}, q.isSqlFree = true →
    q.certain? object = q.value? object
  | always _, _ => rfl
  | keyValue .., _ => (value?_of_isComparison object rfl).symm
  | keyComparison .., _ => (value?_of_isComparison object rfl).symm
  | sql _, h => by contradiction
  | not q, h => by
    have h₁ : q.isSqlFree = true := h
    rw [certain?, certain?_eq_value? h₁, value?_not, value?_eq_reading object h₁]
    rfl
  | compound c parts, h => by
    rw [certain?, value?_compound, certainIn?_eq c h]

theorem certainIn?_eq (c : Connective) : ∀ {qs : List Qualifier},
    (leavesIn qs).all isComparison = true →
      certainIn? object c qs = some (evaluateParts object c qs).value
  | [], _ => rfl
  | q :: qs, h => by
    rw [leavesIn, List.all_append, Bool.and_eq_true] at h
    rw [certainIn?, certain?_eq_value? h.1, certainIn?_eq c h.2, value_evaluateParts_cons,
      value?_eq_reading object h.1]
    rfl

end

mutual

theorem negatesCertain_of_pieces : ∀ {q : Qualifier},
    (∀ p, not p ∈ q.pieces → p.isEvaluatable = true → p.isSqlFree = true) →
      q.negatesCertain object = true
  | always _, _ => rfl
  | keyValue .., _ => rfl
  | keyComparison .., _ => rfl
  | sql _, _ => rfl
  | not q, h => by
    rw [negatesCertain]
    cases he : q.isEvaluatable with
    | false => cases q <;> first | rfl | contradiction
    | true =>
      rw [certain?_eq_value? (h q (mem_pieces_self _) he)]
      cases q.value? object with
      | none => rfl
      | some b => cases b <;> rfl
  | compound c parts, h =>
    negatesCertainIn_of_pieces c fun p hp => h p (List.mem_cons_of_mem _ hp)

theorem negatesCertainIn_of_pieces (c : Connective) : ∀ {qs : List Qualifier},
    (∀ p, not p ∈ piecesIn qs → p.isEvaluatable = true → p.isSqlFree = true) →
      negatesCertainIn object c qs = true
  | [], _ => rfl
  | q :: qs, h => by
    rw [negatesCertainIn, negatesCertain_of_pieces fun p hp => h p (List.mem_append_left _ hp),
      negatesCertainIn_of_pieces c fun p hp => h p (List.mem_append_right _ hp), Bool.or_true,
      Bool.and_true]

end

/-- A qualifier that evaluates to true cannot be false, whatever its raw SQL is, exactly if its
three-valued value is true. This is so if all that the evaluation negates is certain, as it is where
nothing but raw SQL itself and qualifiers without raw SQL are negated. -/
theorem canBe_of_value? {q : Qualifier} (hv : q.value? object = some true) :
    ((∀ a, q.CanBe object a → a = true) ↔ q.certain? object = some true) ∧
    (q.negatesCertain object = true → ∀ a, q.CanBe object a → a = true) ∧
    ((∀ p, not p ∈ q.pieces → p.isEvaluatable = true → p.isSqlFree = true) →
      ∀ a, q.CanBe object a → a = true) :=
  ⟨certain?_eq_some_true_iff.symm, fun h _ => canBe_of_negatesCertain h hv,
    fun h _ => canBe_of_negatesCertain (negatesCertain_of_pieces h) hv⟩

/-- Raw SQL that is passed over, and a negation that does not reach it. -/
theorem canBe_of_value?_city :
    let city (name : String) : Qualifier :=
      .keyValue (.name "city") (.known .equalTo) (.constant (.string name))
    let q : Qualifier := .compound .or
      [.compound .and [city "Oz", .sql [.raw "banned = 1"]], .not (city "Ev")]
    let object : Value := .map [("city", .string "Oz")]
    q.value? object = some true ∧ ∀ a, q.CanBe object a → a = true := by
  intro city q object
  have hc (name : String) : (city name).value? object = some ("Oz" == name) :=
    value?_equalTo_text (by decide) (by decide) "Oz" name
  have hs : (sql [.raw "banned = 1"]).value? object = none := rfl
  have hv : q.value? object = some true := by
    simp [q, value?_compound, value_evaluateParts_cons, value?_not, hc, hs, Connective.apply]
  refine ⟨hv, (canBe_of_value? hv).2.2 fun p hp _ => ?_⟩
  obtain rfl : p = city "Ev" := by simpa [q, city, pieces, piecesIn] using hp
  rfl

/-- The negation of a compound that begins with raw SQL matches every object. -/
theorem value?_not_compound_sql (c : Connective) (sqlParts : List SqlPart) (qs : List Qualifier) :
    (not (compound c (sql sqlParts :: qs))).value? object = some true := rfl

/-- A match that is wrong whatever the raw SQL is. -/
theorem canBe_false_of_negation :
    let q : Qualifier := .not (.compound .or [.sql [.raw "banned = 1"],
      .keyValue (.name "city") (.known .equalTo) (.constant (.string "Oz"))])
    let object : Value := .map [("city", .string "Oz")]
    q.isEvaluatable = true ∧ q.value? object = some true ∧
      q.CanBe object false ∧ ¬ q.CanBe object true := by
  intro q object
  have hc : (keyValue (.name "city") (.known .equalTo) (.constant (.string "Oz"))).value? object =
      some true := value?_equalTo_text (by decide) (by decide) "Oz" "Oz"
  have h : q.certain? object = some false := by
    simp [q, certain?, certainIn?, holds, hc, Connective.combine?, Connective.apply,
      Connective.unit]
  refine ⟨rfl, value?_not_compound_sql .or _ _, ?_, ?_⟩
  · simp [canBe_iff, h]
  · simp [canBe_iff, h]

end Qualifier

end RecordQuery
