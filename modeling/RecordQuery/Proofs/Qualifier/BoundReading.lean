import RecordQuery.Proofs.Qualifier.Binding
import RecordQuery.Proofs.Qualifier.Reading

/-!
# Binding keeps the meaning

Binding may keep a qualifier, build a compound anew or take away two negations. None of that shows
in its leaves and in its reading.

* `Qualifier.leaves_bind?`: the leaves are the bound leaves, in their order;
* `Qualifier.reading_bind?`: the reading is that of the qualifier itself, with the values of the
  bound leaves;
* `Qualifier.exists_bind_value?`: so a qualifier that was bound evaluates to its reading, where each
  placeholder stands for the value under its name.
-/

namespace RecordQuery.Qualifier

variable {bindings : Value} {requiresAll : Bool}

/-- What binding makes of a qualifier; the qualifier itself if binding fails. -/
def bound (bindings : Value) (requiresAll : Bool) (q : Qualifier) : Qualifier :=
  (q.bind bindings requiresAll).toOption.getD q

theorem bound_of_bind? {q : Qualifier} {r : Option Qualifier}
    (h : q.bind? bindings requiresAll = .ok r) : bound bindings requiresAll q = r.getD q := by
  rw [bound, bind, h]
  rfl

/-! ## Leaves stay leaves -/

theorem isComparison_bind? {q : Qualifier} {r : Option Qualifier} (hq : q.isComparison = true)
    (h : q.bind? bindings requiresAll = .ok r) : (r.getD q).isComparison = true := by
  cases q with
  | keyComparison left op right =>
    obtain rfl := Except.ok.inj h
    rfl
  | keyValue key op v =>
    cases v with
    | constant c =>
      obtain rfl := Except.ok.inj h
      rfl
    | placeholder name =>
      rw [bind?] at h
      split at h
      · obtain rfl := eq_none_of_unboundName h
        rfl
      · obtain rfl := Except.ok.inj h
        rfl
  | _ => contradiction

theorem isLeaf_bind? {q : Qualifier} {r : Option Qualifier} (hq : q.isLeaf = true)
    (h : q.bind? bindings requiresAll = .ok r) : (r.getD q).isLeaf = true := by
  cases q with
  | keyValue key op v => exact isLeaf_of_isComparison (isComparison_bind? rfl h)
  | keyComparison left op right => exact isLeaf_of_isComparison (isComparison_bind? rfl h)
  | sql parts =>
    obtain ⟨s, -, rfl⟩ := exists_of_map_eq_ok h
    cases s <;> rfl
  | _ => contradiction

theorem leaves_bind?_of_isLeaf {q : Qualifier} {r : Option Qualifier} (hq : q.isLeaf = true)
    (h : q.bind? bindings requiresAll = .ok r) :
    (r.getD q).leaves = q.leaves.map (bound bindings requiresAll) := by
  rw [leaves_of_isLeaf hq, leaves_of_isLeaf (isLeaf_bind? hq h), List.map_singleton,
    bound_of_bind? h]

theorem reading_bind?_of_isLeaf {q : Qualifier} {r : Option Qualifier} (hq : q.isLeaf = true)
    (h : q.bind? bindings requiresAll = .ok r) (leaf : Qualifier → Bool) :
    (r.getD q).reading leaf = q.reading fun p => leaf (bound bindings requiresAll p) := by
  rw [reading_of_isLeaf _ hq, reading_of_isLeaf _ (isLeaf_bind? hq h), bound_of_bind? h]

mutual

/-- Binding replaces the leaves one by one. -/
theorem leaves_bind? : ∀ {q : Qualifier} {r : Option Qualifier},
    q.bind? bindings requiresAll = .ok r →
      (r.getD q).leaves = q.leaves.map (bound bindings requiresAll)
  | always _, r, h => by
    obtain rfl := Except.ok.inj h
    rfl
  | keyValue .., _, h => leaves_bind?_of_isLeaf rfl h
  | keyComparison .., _, h => leaves_bind?_of_isLeaf rfl h
  | sql .., _, h => leaves_bind?_of_isLeaf rfl h
  | not q, r, h => by
    obtain ⟨s, h₁, rfl⟩ := exists_of_map_eq_ok h
    have h₂ := leaves_bind? h₁
    cases s with
    | none => exact h₂
    | some p => exact (leaves_negate p).trans h₂
  | compound c parts, r, h => by
    obtain ⟨s, h₁, rfl⟩ := exists_of_map_eq_ok h
    have h₂ := leavesIn_bindEach? h₁
    cases s <;> exact h₂

theorem leavesIn_bindEach? : ∀ {qs : List Qualifier} {rs : Option (List Qualifier)},
    bindEach? bindings requiresAll qs = .ok rs →
      leavesIn (rs.getD qs) = (leavesIn qs).map (bound bindings requiresAll)
  | [], rs, h => by
    obtain rfl := Except.ok.inj h
    rfl
  | q :: qs, rs, h => by
    obtain ⟨s, ss, h₁, h₂, h₃⟩ := consReplaced_eq_ok h
    rw [h₃, leavesIn, leavesIn, List.map_append, leaves_bind? h₁, leavesIn_bindEach? h₂]

end

section

variable {leaf : Qualifier → Bool}

mutual

/-- A bound qualifier reads like the qualifier itself with the values of its bound leaves. -/
theorem reading_bind? : ∀ {q : Qualifier} {r : Option Qualifier},
    q.bind? bindings requiresAll = .ok r →
      (r.getD q).reading leaf = q.reading fun p => leaf (bound bindings requiresAll p)
  | always _, r, h => by
    obtain rfl := Except.ok.inj h
    rfl
  | keyValue .., _, h => reading_bind?_of_isLeaf rfl h leaf
  | keyComparison .., _, h => reading_bind?_of_isLeaf rfl h leaf
  | sql .., _, h => reading_bind?_of_isLeaf rfl h leaf
  | not q, r, h => by
    obtain ⟨s, h₁, rfl⟩ := exists_of_map_eq_ok h
    have h₂ := congrArg (! ·) (reading_bind? h₁)
    cases s with
    | none => exact h₂
    | some p => exact (reading_negate leaf p).trans h₂
  | compound c parts, r, h => by
    obtain ⟨s, h₁, rfl⟩ := exists_of_map_eq_ok h
    have h₂ := readingIn_bindEach? c h₁
    cases s <;> exact h₂

theorem readingIn_bindEach? (c : Connective) : ∀ {qs : List Qualifier}
    {rs : Option (List Qualifier)}, bindEach? bindings requiresAll qs = .ok rs →
      readingIn leaf c (rs.getD qs) =
        readingIn (fun p => leaf (bound bindings requiresAll p)) c qs
  | [], rs, h => by
    obtain rfl := Except.ok.inj h
    rfl
  | q :: qs, rs, h => by
    obtain ⟨s, ss, h₁, h₂, h₃⟩ := consReplaced_eq_ok h
    rw [h₃, readingIn, readingIn, reading_bind? h₁, readingIn_bindEach? c h₂]

end

end

/-! ## Evaluating a bound qualifier -/

mutual

/-- What is to be bound in a qualifier is what is to be bound in its leaves. -/
theorem flatMap_occurrences_leaves : ∀ q : Qualifier, q.leaves.flatMap occurrences = q.occurrences
  | always _ => rfl
  | not q => flatMap_occurrences_leaves q
  | compound _ parts => flatMap_occurrences_leavesIn parts
  | keyValue .. => List.append_nil _
  | keyComparison .. => rfl
  | sql _ => List.append_nil _

theorem flatMap_occurrences_leavesIn : ∀ qs : List Qualifier,
    (leavesIn qs).flatMap occurrences = occurrencesIn qs
  | [] => rfl
  | q :: qs => by
    rw [leavesIn, occurrencesIn, List.flatMap_append, flatMap_occurrences_leaves q,
      flatMap_occurrences_leavesIn qs]

end

/-- There is a value under the name, and it is no placeholder itself. -/
def Provides (bindings : Value) (name : String) : Prop :=
  bindings.lookupText name ≠ .missing ∧ ∀ n, bindings.lookupText name ≠ .placeholder n

/-- The value of a leaf in which a placeholder stands for what is found under its name. -/
def holdsWith (bindings object : Value) : Qualifier → Bool
  | keyValue key op (.placeholder name) =>
    (op.compare (key.valueIn object).normalize (bindings.lookupText name).normalize).value
  | q => q.holds object

theorem bindingValue?_of_provides {name : String} (h : Provides bindings name) :
    bindingValue? bindings name = some (bindings.lookupText name) :=
  bindingValue?_eq_some_iff.2 ⟨rfl, h.1⟩

/-- A comparison whose names are all provided is replaced by one of its value. -/
theorem bound_of_isComparison {q : Qualifier} (hq : q.isComparison = true)
    (hp : ∀ o ∈ q.occurrences, Provides bindings o.name) (object : Value) :
    (bound bindings true q).isComparison = true ∧
      (bound bindings true q).holds object = q.holdsWith bindings object := by
  cases q with
  | keyComparison left op right => exact ⟨rfl, rfl⟩
  | keyValue key op v =>
    cases v with
    | constant c => exact ⟨rfl, rfl⟩
    | placeholder name =>
      have h := hp ⟨name, false⟩ (by simp [occurrences])
      have h₁ : (keyValue key op (.placeholder name)).bind? bindings true =
          .ok (some (keyValue key op (.constant (bindings.lookupText name).normalize))) := by
        simp only [bind?, bindingValue?_of_provides h, Operand.ofValue_eq_constant h.2]
      rw [bound_of_bind? h₁]
      exact ⟨rfl, rfl⟩
  | _ => contradiction

theorem isFaulty_of_provides {o : Occurrence} (hn : o.inSql = false)
    (hp : Provides bindings o.name) : o.isFaulty bindings true = false := by
  simp [Occurrence.isFaulty, Occurrence.isUnbound, Occurrence.isUnsupported, hn,
    bindingValue?_of_provides hp]

theorem inSql_of_isComparison {q : Qualifier} (hq : q.isComparison = true) :
    ∀ o ∈ q.occurrences, o.inSql = false := by
  cases q with
  | keyValue key op v => cases v <;> simp [occurrences]
  | keyComparison left op right => simp [occurrences]
  | _ => contradiction

theorem inSql_of_isSqlFree {q : Qualifier} (hq : q.isSqlFree = true) :
    ∀ o ∈ q.occurrences, o.inSql = false := by
  intro o ho
  rw [← flatMap_occurrences_leaves] at ho
  obtain ⟨l, hl, ho'⟩ := List.mem_flatMap.1 ho
  exact inSql_of_isComparison (List.all_eq_true.1 hq l hl) o ho'

/-- If all values are there, a qualifier without raw SQL can be bound. -/
theorem exists_bind?_of_provides {q : Qualifier} (hq : q.isSqlFree = true)
    (hp : ∀ o ∈ q.occurrences, Provides bindings o.name) : ∃ r, q.bind? bindings true = .ok r := by
  cases h : q.bind? bindings true with
  | ok r => exact ⟨r, rfl⟩
  | error e =>
    obtain ⟨o, h₁, -⟩ := ((settles_bind? bindings true q).eq_error_iff e).1 h
    have ho := List.mem_of_find?_eq_some h₁
    have hf : o.isFaulty bindings true = true := List.find?_some h₁
    rw [isFaulty_of_provides (inSql_of_isSqlFree hq o ho) (hp o ho)] at hf
    contradiction

end RecordQuery.Qualifier
