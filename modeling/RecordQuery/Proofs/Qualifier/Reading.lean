import RecordQuery.Proofs.Qualifier.Evaluation
import RecordQuery.Qualifier.Combine

/-!
# The Boolean reading of qualifiers

`Qualifier.reading` takes the leaves of a qualifier as truth values and its negations and compounds
as Boolean connectives. Evaluation logs, stops early and has no value for raw SQL; without raw SQL
it comes to the same.

* `Qualifier.value?_eq_reading`: a qualifier without raw SQL evaluates to its reading;
* `Qualifier.reading_join`, `Qualifier.reading_negate`: simplification does not change the reading,
  whatever the leaves are;
* `Qualifier.value?_combined`: so the combinators mean what they say.
-/

namespace RecordQuery

theorem Connective.apply_unit_left (c : Connective) (x : Bool) : c.apply c.unit x = x := by
  cases c <;> rfl

/-- The truth value that does not vanish takes over. -/
theorem Connective.apply_of_ne_unit (c : Connective) {x : Bool} (h : x ≠ c.unit) (y : Bool) :
    c.apply x y = x := by
  cases c <;> cases x <;> first | rfl | exact absurd rfl h

theorem Connective.apply_comm (c : Connective) (x y : Bool) : c.apply x y = c.apply y x := by
  cases c
  · exact Bool.and_comm x y
  · exact Bool.or_comm x y

namespace Qualifier

/-! ## Leaves -/

/-- The qualifier is a comparison or raw SQL. -/
def isLeaf : Qualifier → Bool
  | keyValue _ _ _ => true
  | keyComparison _ _ _ => true
  | sql _ => true
  | _ => false

mutual

/-- The leaves of a qualifier, from left to right. -/
def leaves : Qualifier → List Qualifier
  | always _ => []
  | not q => q.leaves
  | compound _ parts => leavesIn parts
  | q => [q]

/-- The leaves of the qualifiers of a list. -/
def leavesIn : List Qualifier → List Qualifier
  | [] => []
  | q :: qs => q.leaves ++ leavesIn qs

end

/-- There is no raw SQL in the qualifier: all its leaves are comparisons. -/
def isSqlFree (q : Qualifier) : Bool :=
  q.leaves.all isComparison

theorem isLeaf_of_isComparison {q : Qualifier} (h : q.isComparison = true) : q.isLeaf = true := by
  cases q <;> first | rfl | contradiction

theorem leaves_of_isLeaf {q : Qualifier} (h : q.isLeaf = true) : q.leaves = [q] := by
  cases q <;> first | rfl | contradiction

theorem leavesIn_append (qs ps : List Qualifier) :
    leavesIn (qs ++ ps) = leavesIn qs ++ leavesIn ps := by
  induction qs with
  | nil => rfl
  | cons q qs ih => rw [List.cons_append, leavesIn, leavesIn, ih, List.append_assoc]

theorem leavesIn_partsFor (c : Connective) (q : Qualifier) :
    leavesIn (q.partsFor c) = q.leaves := by
  have h : leavesIn [q] = q.leaves := List.append_nil _
  cases q with
  | compound d parts =>
    rw [partsFor]
    split
    · rfl
    · exact h
  | _ => exact h

theorem leaves_negate (q : Qualifier) : q.negate.leaves = q.leaves := by
  cases q <;> rfl

/-- A truth value is joined by dropping it or what it is joined with, and everything else by a
compound. -/
theorem join_cases (c : Connective) (q p : Qualifier) :
    (∃ b, q = always b ∧ q.join c p = if b = c.unit then p else q) ∨
    (∃ b, p = always b ∧ q.join c p = if b = c.unit then q else p) ∨
    (∀ b, q ≠ always b) ∧ (∀ b, p ≠ always b) ∧
      q.join c p = compound c (q.partsFor c ++ p.partsFor c) := by
  cases q with
  | always b => exact .inl ⟨b, rfl, rfl⟩
  | _ =>
    cases p with
    | always b => exact .inr (.inl ⟨b, rfl, rfl⟩)
    | _ => exact .inr (.inr ⟨nofun, nofun, rfl⟩)

theorem leaves_join_subset (c : Connective) (q p : Qualifier) :
    (q.join c p).leaves ⊆ q.leaves ++ p.leaves := by
  rcases join_cases c q p with ⟨b, -, h⟩ | ⟨b, -, h⟩ | ⟨-, -, h⟩
  · rw [h]
    split
    · exact List.subset_append_right _ _
    · exact List.subset_append_left _ _
  · rw [h]
    split
    · exact List.subset_append_left _ _
    · exact List.subset_append_right _ _
  · rw [h, leaves, leavesIn_append, leavesIn_partsFor, leavesIn_partsFor]
    exact List.Subset.refl _

theorem all_isComparison_leavesIn {qs : List Qualifier} (h : ∀ q ∈ qs, q.isSqlFree = true) :
    (leavesIn qs).all isComparison = true := by
  induction qs with
  | nil => rfl
  | cons q qs ih =>
    obtain ⟨h₁, h₂⟩ := List.forall_mem_cons.1 h
    rw [leavesIn, List.all_append, ih h₂, Bool.and_true]
    exact h₁

theorem isSqlFree_negate {q : Qualifier} (h : q.isSqlFree = true) : q.negate.isSqlFree = true := by
  rwa [isSqlFree, leaves_negate]

theorem isSqlFree_join (c : Connective) {q p : Qualifier} (hq : q.isSqlFree = true)
    (hp : p.isSqlFree = true) : (q.join c p).isSqlFree = true := by
  have h : ∀ l ∈ q.leaves ++ p.leaves, l.isComparison = true :=
    List.forall_mem_append.2 ⟨List.all_eq_true.1 hq, List.all_eq_true.1 hp⟩
  exact List.all_eq_true.2 fun l hl => h l (leaves_join_subset c q p hl)

/-! ## The reading -/

section

variable (leaf : Qualifier → Bool)

mutual

/-- The truth value of a qualifier if its leaves have the given ones. -/
def reading : Qualifier → Bool
  | always b => b
  | not q => !q.reading
  | compound c parts => readingIn c parts
  | q => leaf q

/-- The truth value of the parts of a compound. -/
def readingIn (c : Connective) : List Qualifier → Bool
  | [] => c.unit
  | q :: qs => c.apply q.reading (readingIn c qs)

end

theorem reading_of_isLeaf {q : Qualifier} (h : q.isLeaf = true) : q.reading leaf = leaf q := by
  cases q <;> first | rfl | contradiction

theorem readingIn_append (c : Connective) (qs ps : List Qualifier) :
    readingIn leaf c (qs ++ ps) = c.apply (readingIn leaf c qs) (readingIn leaf c ps) := by
  induction qs with
  | nil => exact (c.apply_unit_left _).symm
  | cons q qs ih => rw [List.cons_append, readingIn, readingIn, ih, c.apply_assoc]

theorem readingIn_partsFor (c : Connective) (q : Qualifier) :
    readingIn leaf c (q.partsFor c) = q.reading leaf := by
  have h : readingIn leaf c [q] = q.reading leaf := c.apply_unit _
  cases q with
  | compound d parts =>
    rw [partsFor]
    split
    · next h₁ => rw [h₁, reading]
    · exact h
  | _ => exact h

/-- Joining qualifiers joins their readings, however it simplifies. -/
theorem reading_join (c : Connective) (q p : Qualifier) :
    (q.join c p).reading leaf = c.apply (q.reading leaf) (p.reading leaf) := by
  rcases join_cases c q p with ⟨b, rfl, h⟩ | ⟨b, rfl, h⟩ | ⟨-, -, h⟩
  · rw [h, reading]
    split
    · next hb => rw [hb, c.apply_unit_left]
    · next hb => rw [c.apply_of_ne_unit hb, reading]
  · rw [h, c.apply_comm, reading]
    split
    · next hb => rw [hb, c.apply_unit_left]
    · next hb => rw [c.apply_of_ne_unit hb, reading]
  · rw [h, reading, readingIn_append, readingIn_partsFor, readingIn_partsFor]

theorem reading_negate (q : Qualifier) : q.negate.reading leaf = !q.reading leaf := by
  cases q with
  | not q => rw [negate, reading, Bool.not_not]
  | _ => rfl

variable {leaf}

mutual

/-- Only the values of the leaves count. -/
theorem reading_congr {leaf' : Qualifier → Bool} : ∀ {q : Qualifier},
    (∀ p ∈ q.leaves, leaf p = leaf' p) → q.reading leaf = q.reading leaf'
  | always _, _ => rfl
  | not q, h => by rw [reading, reading, reading_congr (q := q) h]
  | compound c parts, h => readingIn_congr c h
  | keyValue .., h => h _ (List.mem_singleton_self _)
  | keyComparison .., h => h _ (List.mem_singleton_self _)
  | sql _, h => h _ (List.mem_singleton_self _)

theorem readingIn_congr {leaf' : Qualifier → Bool} (c : Connective) : ∀ {qs : List Qualifier},
    (∀ p ∈ leavesIn qs, leaf p = leaf' p) → readingIn leaf c qs = readingIn leaf' c qs
  | [], _ => rfl
  | q :: qs, h => by
    obtain ⟨h₁, h₂⟩ := List.forall_mem_append.1 h
    rw [readingIn, readingIn, reading_congr h₁, readingIn_congr c h₂]

end

end

/-! ## Evaluation -/

section

variable (object : Value)

theorem value?_of_isComparison {q : Qualifier} (h : q.isComparison = true) :
    q.value? object = some (q.holds object) := by
  apply value?_eq_some
  cases q <;> first | rfl | contradiction

mutual

/-- A qualifier without raw SQL evaluates to its reading. -/
theorem value?_eq_reading : ∀ {q : Qualifier}, q.isSqlFree = true →
    q.value? object = some (q.reading (·.holds object))
  | always _, _ => rfl
  | not q, h => by
    rw [value?_not, value?_eq_reading (q := q) h]
    rfl
  | compound c parts, h => by
    rw [value?_compound, value_evaluateParts_eq_reading c h, reading]
  | keyValue .., _ => value?_of_isComparison object rfl
  | keyComparison .., _ => value?_of_isComparison object rfl
  | sql _, h => by contradiction

theorem value_evaluateParts_eq_reading (c : Connective) : ∀ {qs : List Qualifier},
    (leavesIn qs).all isComparison = true →
      (evaluateParts object c qs).value = readingIn (·.holds object) c qs
  | [], _ => rfl
  | q :: qs, h => by
    rw [leavesIn, List.all_append, Bool.and_eq_true] at h
    rw [value_evaluateParts_cons, value?_eq_reading h.1, value_evaluateParts_eq_reading c h.2]
    rfl

end

theorem holds_eq_reading {q : Qualifier} (h : q.isSqlFree = true) :
    q.holds object = q.reading (·.holds object) := by
  rw [holds, value?_eq_reading object h, Option.getD_some]

/-- The conjunction, the disjunction and the negation of qualifiers without raw SQL evaluate to
those of their values, and two negations to the value itself. -/
theorem value?_combined {q p : Qualifier} (hq : q.isSqlFree = true) (hp : p.isSqlFree = true) :
    ∃ x y, q.value? object = some x ∧ p.value? object = some y ∧
      (q.conjoin p).value? object = some (x && y) ∧
      (q.disjoin p).value? object = some (x || y) ∧
      q.negate.value? object = some (!x) ∧ q.negate.negate.value? object = some x := by
  have hn := isSqlFree_negate hq
  refine ⟨_, _, value?_eq_reading object hq, value?_eq_reading object hp, ?_, ?_, ?_, ?_⟩
  · rw [conjoin, value?_eq_reading object (isSqlFree_join .and hq hp), reading_join]
    rfl
  · rw [disjoin, value?_eq_reading object (isSqlFree_join .or hq hp), reading_join]
    rfl
  · rw [value?_eq_reading object hn, reading_negate]
  · rw [value?_eq_reading object (isSqlFree_negate hn), reading_negate, reading_negate,
      Bool.not_not]

end

/-- Negations of negations, a compound without parts and a truth value inside a compound. -/
theorem value?_combined_city :
    let q : Qualifier := .compound .or [.not (.not (.always true)), .compound .or []]
    let p : Qualifier :=
      .not (.keyValue (.name "city") (.known .equalTo) (.constant (.string "Oz")))
    let object : Value := .map [("city", .string "Oz")]
    q.isSqlFree = true ∧ p.isSqlFree = true ∧
      (q.conjoin p).value? object = some false ∧ (q.disjoin p).value? object = some true ∧
      p.negate.value? object = some true ∧ p.negate.negate.value? object = some false := by
  intro q p object
  have hq : q.isSqlFree = true := rfl
  have hp : p.isSqlFree = true := rfl
  have h₁ : q.value? object = some true := rfl
  have h₂ : p.value? object = some false := by
    have hc := object.lookupText_of_notMem "city" (by decide) (by decide)
    simp [p, value?, evaluate?, Key.valueIn, Key.text, hc, object, Value.lookup, Entries.get?,
      Value.normalize, Operation.compare, Constant.isEqual]
  obtain ⟨x, y, hx, hy, h₃, h₄, -⟩ := value?_combined object hq hp
  obtain rfl : true = x := Option.some.inj (h₁.symm.trans hx)
  obtain rfl : false = y := Option.some.inj (h₂.symm.trans hy)
  obtain ⟨z, _, hz, -, -, -, h₅, h₆⟩ := value?_combined object hp hq
  obtain rfl : false = z := Option.some.inj (h₂.symm.trans hz)
  exact ⟨hq, hp, h₃, h₄, h₅, h₆⟩

end Qualifier

end RecordQuery
