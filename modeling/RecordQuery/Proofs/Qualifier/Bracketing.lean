import RecordQuery.Proofs.Qualifier.Reading

/-!
# Bracketings of clauses

Joining is associative, and what is absent is neutral in it. So a list of clauses, some of which may
be absent, can be joined in pairs in any way: all ways lead to one qualifier, which `joinAll` tells
from the list.

* `Qualifier.join_assoc`, `Qualifier.joinOptional_assoc`: the tree does not show how it was joined;
* `Qualifier.foldr_joinOptional`: what clauses that are joined from the right come to;
* `Qualifier.joining_monoid`: the laws of the conjunction and of the disjunction together.
-/

namespace RecordQuery.Qualifier

variable (c : Connective)

/-! ## Truth values -/

theorem join_unit_left (q : Qualifier) : (always c.unit).join c q = q :=
  if_pos rfl

theorem join_unit_right (q : Qualifier) : q.join c (always c.unit) = q := by
  cases q with
  | always b =>
    rw [join]
    split
    · next h => rw [h]
    · rfl
  | _ => exact if_pos rfl

/-- The truth value that does not vanish takes over, whatever it is joined with. -/
theorem join_other_left (q : Qualifier) : (always !c.unit).join c q = always !c.unit :=
  if_neg (by cases c <;> decide)

theorem join_other_right (q : Qualifier) : q.join c (always !c.unit) = always !c.unit := by
  have h : ¬ (!c.unit) = c.unit := by cases c <;> decide
  cases q with
  | always b =>
    rw [join]
    split
    · rfl
    · next hb => rw [Bool.eq_not_of_ne hb]
  | _ => exact if_neg h

variable {c} in
theorem join_of_ne {q p : Qualifier} (hq : ∀ b, q ≠ always b) (hp : ∀ b, p ≠ always b) :
    q.join c p = compound c (q.partsFor c ++ p.partsFor c) := by
  rcases join_cases c q p with ⟨b, h, -⟩ | ⟨b, h, -⟩ | ⟨-, -, h⟩
  · exact absurd h (hq b)
  · exact absurd h (hp b)
  · exact h

theorem always_cases (q : Qualifier) :
    q = always c.unit ∨ q = always !c.unit ∨ ∀ b, q ≠ always b := by
  cases q with
  | always b =>
    by_cases h : b = c.unit
    · exact .inl (by rw [h])
    · exact .inr (.inl (by rw [Bool.eq_not_of_ne h]))
  | _ => exact .inr (.inr nofun)

/-! ## Associativity -/

theorem partsFor_compound (parts : List Qualifier) : (compound c parts).partsFor c = parts :=
  if_pos rfl

/-- A join of three qualifiers is the same tree in both bracketings. -/
theorem join_assoc (q p r : Qualifier) : (q.join c p).join c r = q.join c (p.join c r) := by
  rcases always_cases c q with rfl | rfl | hq
  · rw [join_unit_left, join_unit_left]
  · rw [join_other_left, join_other_left, join_other_left]
  rcases always_cases c p with rfl | rfl | hp
  · rw [join_unit_right, join_unit_left]
  · rw [join_other_right, join_other_left, join_other_right]
  rcases always_cases c r with rfl | rfl | hr
  · rw [join_unit_right, join_unit_right]
  · rw [join_other_right, join_other_right, join_other_right]
  -- no truth value is left, so that all three give their parts to one compound
  have h : ∀ parts b, compound c parts ≠ always b := by simp
  rw [join_of_ne hq hp, join_of_ne hp hr, join_of_ne (h _) hr, join_of_ne hq (h _),
    partsFor_compound, partsFor_compound, List.append_assoc]

theorem joinOptional_none_right (q : Option Qualifier) : joinOptional c q none = q := by
  cases q <;> rfl

theorem joinOptional_assoc (x y z : Option Qualifier) :
    joinOptional c (joinOptional c x y) z = joinOptional c x (joinOptional c y z) := by
  cases x with
  | none => rfl
  | some q =>
    cases y with
    | none => rfl
    | some p =>
      cases z with
      | none => rfl
      | some r => exact congrArg some (join_assoc c q p r)

instance : Std.Associative (joinOptional c) := ⟨joinOptional_assoc c⟩

/-! ## Bracketings -/

/-- Clauses, of which some may be absent, that are joined in pairs. -/
inductive Bracketing where
  | clause (q : Option Qualifier)
  | join (left right : Bracketing)

namespace Bracketing

/-- The clauses from left to right. -/
def clauses : Bracketing → List (Option Qualifier)
  | clause q => [q]
  | join left right => left.clauses ++ right.clauses

/-- What the clauses come to when they are joined as the bracketing says. -/
def value (op : Option Qualifier → Option Qualifier → Option Qualifier) :
    Bracketing → Option Qualifier
  | clause q => q
  | join left right => op (left.value op) (right.value op)

theorem value_eq_foldr (t : Bracketing) :
    t.value (joinOptional c) = t.clauses.foldr (joinOptional c) none := by
  induction t with
  | clause q => exact (joinOptional_none_right c q).symm
  | join left right hl hr =>
    have h : ∀ (xs : List (Option Qualifier)) (y : Option Qualifier),
        xs.foldr (joinOptional c) (joinOptional c none y) =
          joinOptional c (xs.foldr (joinOptional c) none) y := fun _ _ => List.foldr_assoc
    rw [value, clauses, List.foldr_append, hl, hr, ← h]
    rfl

end Bracketing

/-! ## The qualifier that clauses come to -/

/-- The qualifier is the given truth value. -/
def isAlways (value : Bool) : Qualifier → Bool
  | always b => b == value
  | _ => false

theorem isAlways_of_ne {q : Qualifier} (h : ∀ b, q ≠ always b) (value : Bool) :
    q.isAlways value = false := by
  cases q with
  | always b => exact absurd rfl (h b)
  | _ => rfl

/-- What qualifiers are joined to. The truth value that takes over does so wherever it stands; else
the other one vanishes, a qualifier that is left alone is taken as it is, and several ones give their
parts to one compound. -/
def joinAll (qs : List Qualifier) : Option Qualifier :=
  if qs.any (isAlways !c.unit) then some (always !c.unit)
  else
    match qs.filter (! isAlways c.unit ·) with
    | [] => if qs.isEmpty then none else some (always c.unit)
    | [q] => some q
    | ps => some (compound c (ps.flatMap (partsFor c)))

theorem joinAll_of_any {qs : List Qualifier} (h : qs.any (isAlways !c.unit) = true) :
    joinAll c qs = some (always !c.unit) :=
  if_pos h

/-- The truth value that vanishes stays only if nothing else is there. -/
theorem joinAll_unit_cons (qs : List Qualifier) :
    joinAll c (always c.unit :: qs) = some ((joinAll c qs).getD (always c.unit)) := by
  have h₁ : (always c.unit).isAlways (!c.unit) = false := by simp [isAlways]
  have h₂ : (always c.unit).isAlways c.unit = true := by simp [isAlways]
  simp only [joinAll, List.any_cons, h₁, Bool.false_or, List.filter_cons, h₂, Bool.not_true,
    Bool.false_eq_true, if_false]
  split
  · rfl
  · split
    · cases qs <;> rfl
    · rfl
    · rfl

variable {c} in
theorem ne_always_of_mem_filter {q : Qualifier} {qs : List Qualifier}
    (h : ¬ qs.any (isAlways !c.unit) = true) (hq : q ∈ qs.filter (! isAlways c.unit ·)) (b : Bool) :
    q ≠ always b := by
  obtain ⟨h₁, h₂⟩ := List.mem_filter.1 hq
  rintro rfl
  have h₃ : b ≠ c.unit := by simpa [isAlways] using h₂
  exact h (List.any_eq_true.2 ⟨_, h₁, by simp [isAlways, Bool.eq_not_of_ne h₃]⟩)

/-- A qualifier that is no truth value is joined with what the others come to. -/
theorem joinAll_cons_of_ne {q : Qualifier} (hq : ∀ b, q ≠ always b) (qs : List Qualifier) :
    joinAll c (q :: qs) = some (joinWith c q (joinAll c qs)) := by
  simp only [joinAll, List.any_cons, isAlways_of_ne hq, Bool.false_or, List.filter_cons,
    Bool.not_false, if_true]
  split
  · exact congrArg some (join_other_right c q).symm
  next h =>
    cases hf : qs.filter (! isAlways c.unit ·) with
    | nil =>
      cases qs with
      | nil => rfl
      | cons p qs => exact congrArg some (join_unit_right c q).symm
    | cons p ps =>
      have hp := ne_always_of_mem_filter h (hf ▸ List.mem_cons_self)
      cases ps with
      | nil =>
        show some (compound c ([q, p].flatMap (partsFor c))) = some (q.join c p)
        rw [join_of_ne hq hp, List.flatMap_cons, List.flatMap_singleton]
      | cons p' ps =>
        show some (compound c ((q :: p :: p' :: ps).flatMap (partsFor c))) =
          some (q.join c (compound c ((p :: p' :: ps).flatMap (partsFor c))))
        rw [join_of_ne hq (by simp), partsFor_compound, List.flatMap_cons]

theorem joinAll_cons (q : Qualifier) (qs : List Qualifier) :
    joinAll c (q :: qs) = joinOptional c (some q) (joinAll c qs) := by
  rcases always_cases c q with rfl | rfl | hq
  · rw [joinAll_unit_cons, joinOptional]
    cases joinAll c qs with
    | none => rfl
    | some p => exact congrArg some (join_unit_left c p).symm
  · have h : (always !c.unit).isAlways (!c.unit) = true := by simp [isAlways]
    rw [joinAll_of_any c (by rw [List.any_cons, h, Bool.true_or]), joinOptional]
    cases joinAll c qs with
    | none => rfl
    | some p => exact congrArg some (join_other_left c p).symm
  · exact joinAll_cons_of_ne c hq qs

theorem foldr_joinOptional (clauses : List (Option Qualifier)) :
    clauses.foldr (joinOptional c) none = joinAll c (clauses.filterMap id) := by
  induction clauses with
  | nil => rfl
  | cons x clauses ih =>
    rw [List.foldr_cons, ih]
    cases x with
    | none => rfl
    | some q => exact (joinAll_cons c q _).symm

/-! ## Both connectives -/

/-- The laws of a monoid in which what is absent is neutral. Among what is there, one truth value is
neutral as well, and the other one takes over. -/
structure IsJoining (op : Option Qualifier → Option Qualifier → Option Qualifier) (unit : Bool) :
    Prop where
  assoc : ∀ x y z, op (op x y) z = op x (op y z)
  none_left : ∀ x, op none x = x
  none_right : ∀ x, op x none = x
  unit_left : ∀ q, op (some (always unit)) (some q) = some q
  unit_right : ∀ q, op (some q) (some (always unit)) = some q
  other_left : ∀ x, op (some (always !unit)) x = some (always !unit)
  other_right : ∀ x, op x (some (always !unit)) = some (always !unit)

theorem isJoining_joinOptional : IsJoining (joinOptional c) c.unit where
  assoc := joinOptional_assoc c
  none_left _ := rfl
  none_right := joinOptional_none_right c
  unit_left q := congrArg some (join_unit_left c q)
  unit_right q := congrArg some (join_unit_right c q)
  other_left x := by
    cases x with
    | none => rfl
    | some q => exact congrArg some (join_other_left c q)
  other_right x := by
    cases x with
    | none => rfl
    | some q => exact congrArg some (join_other_right c q)

/-- Conjunction and disjunction are monoids on qualifiers of which any may be absent: true is
neutral in the one and false in the other, and the other truth value takes over. In whatever way
clauses are bracketed, the qualifier that they come to is the one that their list tells. -/
theorem joining_monoid :
    IsJoining both true ∧ IsJoining either false ∧
      ∀ t : Bracketing, t.value both = joinAll .and (t.clauses.filterMap id) ∧
        t.value either = joinAll .or (t.clauses.filterMap id) := by
  refine ⟨isJoining_joinOptional .and, isJoining_joinOptional .or, fun t => ⟨?_, ?_⟩⟩
  · exact (t.value_eq_foldr .and).trans (foldr_joinOptional .and t.clauses)
  · exact (t.value_eq_foldr .or).trans (foldr_joinOptional .or t.clauses)

end RecordQuery.Qualifier
