import RecordQuery.Qualifier.Basic

/-!
# Runs of connectives

What a row of qualifiers amounts to if all connectives bind equally: each maximal run of one
connective becomes one compound, the first part of which is all that stands before the run
(`Qualifier.regroup`).

* `Qualifier.regroup_cons_eq_extend`: the same, one qualifier at a time, with a compound that grows
  until the connective changes.
-/

namespace RecordQuery.Qualifier

/-- The parts of the run of one connective at the front of a row. -/
def run (c : Connective) (links : List (Connective × Qualifier)) : List Qualifier :=
  (links.takeWhile fun l => l.1 = c).map (·.2)

/-- What follows the run of one connective at the front of a row. -/
def afterRun (c : Connective) (links : List (Connective × Qualifier)) :
    List (Connective × Qualifier) :=
  links.dropWhile fun l => l.1 = c

theorem length_afterRun_le (c : Connective) (links : List (Connective × Qualifier)) :
    (afterRun c links).length ≤ links.length :=
  (List.dropWhile_sublist _).length_le

/-- A row of qualifiers with connectives between them, each maximal run of one connective made one
compound that starts with all that stands before it. -/
def regroup (q : Qualifier) : List (Connective × Qualifier) → Qualifier
  | [] => q
  | (c, p) :: links => regroup (compound c (q :: p :: run c links)) (afterRun c links)
termination_by links => links.length
decreasing_by
  have h := length_afterRun_le c links
  simp only [List.length_cons]
  omega

@[simp] theorem regroup_nil (q : Qualifier) : regroup q [] = q := by
  rw [regroup]

theorem regroup_cons (q : Qualifier) (c : Connective) (p : Qualifier)
    (links : List (Connective × Qualifier)) :
    regroup q ((c, p) :: links) =
      regroup (compound c (q :: p :: run c links)) (afterRun c links) := by
  rw [regroup]

/-- A row that goes on after a compound that is still growing. -/
def extend (c : Connective) (parts : List Qualifier) : List (Connective × Qualifier) → Qualifier
  | [] => compound c parts
  | (d, p) :: links =>
    if c = d then extend c (parts ++ [p]) links else extend d [compound c parts, p] links

theorem extend_eq_regroup (c : Connective) (parts : List Qualifier)
    (links : List (Connective × Qualifier)) :
    extend c parts links = regroup (compound c (parts ++ run c links)) (afterRun c links) := by
  induction links generalizing c parts with
  | nil => simp [extend, run, afterRun]
  | cons l links ih =>
    obtain ⟨d, p⟩ := l
    by_cases h : c = d
    · subst h
      rw [extend, if_pos rfl, ih]
      simp [run, afterRun]
    · have h₁ : d ≠ c := Ne.symm h
      rw [extend, if_neg h, ih]
      simp [run, afterRun, h₁, regroup_cons]

/-- Regrouping reads a row from the left, with one growing compound. -/
theorem regroup_cons_eq_extend (q : Qualifier) (c : Connective) (p : Qualifier)
    (links : List (Connective × Qualifier)) :
    regroup q ((c, p) :: links) = extend c [q, p] links := by
  rw [regroup_cons, extend_eq_regroup]
  rfl

theorem extend_of_run (c : Connective) (parts ps : List Qualifier) :
    extend c parts (ps.map fun p => (c, p)) = compound c (parts ++ ps) := by
  induction ps generalizing parts with
  | nil => simp [extend]
  | cons p ps ih => simp [extend, ih]

/-- A row in which there is only one connective is one compound. -/
theorem regroup_of_run (c : Connective) (q p : Qualifier) (ps : List Qualifier) :
    regroup q ((p :: ps).map fun p => (c, p)) = compound c (q :: p :: ps) := by
  rw [List.map_cons, regroup_cons_eq_extend, extend_of_run]
  rfl

/-! ## What holds of a regrouped row -/

/-- What holds of a growing compound's parts and of all that follows holds of the whole, if it
holds of compounds of at least two such parts. -/
theorem of_extend {P : Qualifier → Prop}
    (hc : ∀ (c : Connective) (parts : List Qualifier), 2 ≤ parts.length → (∀ q ∈ parts, P q) →
      P (compound c parts))
    (c : Connective) {parts : List Qualifier} (h₁ : 2 ≤ parts.length) (h₂ : ∀ q ∈ parts, P q)
    {links : List (Connective × Qualifier)} (hl : ∀ l ∈ links, P l.2) :
    P (extend c parts links) := by
  induction links generalizing c parts with
  | nil => exact hc c parts h₁ h₂
  | cons l links ih =>
    obtain ⟨d, p⟩ := l
    have h₃ : P p := hl (d, p) (by simp)
    have h₄ : ∀ l ∈ links, P l.2 := fun l h => hl l (List.mem_cons_of_mem _ h)
    rw [extend]
    split
    · exact ih c (by simp; omega) (by simpa [or_imp, forall_and] using ⟨h₂, h₃⟩) h₄
    · exact ih d (by simp) (by simpa using ⟨hc c parts h₁ h₂, h₃⟩) h₄

/-- What holds of all qualifiers of a row holds of the regrouped row, if it holds of compounds of at
least two such parts. -/
theorem of_regroup {P : Qualifier → Prop}
    (hc : ∀ (c : Connective) (parts : List Qualifier), 2 ≤ parts.length → (∀ q ∈ parts, P q) →
      P (compound c parts))
    {q : Qualifier} (hq : P q) {links : List (Connective × Qualifier)} (hl : ∀ l ∈ links, P l.2) :
    P (q.regroup links) := by
  cases links with
  | nil => rwa [regroup_nil]
  | cons l links =>
    obtain ⟨c, p⟩ := l
    have h₁ : P p := hl (c, p) (by simp)
    rw [regroup_cons_eq_extend]
    exact of_extend hc c (by simp) (by simpa using ⟨hq, h₁⟩)
      fun l h => hl l (List.mem_cons_of_mem _ h)

end RecordQuery.Qualifier
