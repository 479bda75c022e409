import RecordQuery.Proofs.Qualifier.BoundReading

/-!
# What a qualifier tells of its placeholders

Three traversals look for placeholders: whether there is one at all, which names they have, and
which key the placeholder of a name is compared with. The first two count those in raw SQL, the last
one does not. All of them are read off the leaves of the qualifier, from left to right, so that they
agree (`Qualifier.placeholders_agree`).

* `keyForBinding?_eq_findSome?`: the key for a name is that of the first leaf that has one;
* `flatMap_keyOccurrences_leaves`: the keys of a qualifier are the keys of its leaves.
-/

namespace RecordQuery.Qualifier

/-- The text of the key, if the qualifier compares a key with the placeholder of the name. -/
def comparedKey? (name : String) : Qualifier → Option String
  | keyValue key _ (.placeholder n) => if n = name then some key.text else none
  | _ => none

theorem comparedKey?_eq_some_iff {name key : String} {q : Qualifier} :
    q.comparedKey? name = some key ↔
      ∃ k op, q = keyValue k op (.placeholder name) ∧ k.text = key := by
  constructor
  · intro h
    unfold comparedKey? at h
    split at h
    · next k op n =>
      split at h
      · next hn =>
        subst hn
        exact ⟨k, op, rfl, Option.some.inj h⟩
      · contradiction
    · contradiction
  · rintro ⟨k, op, rfl, rfl⟩
    simp [comparedKey?]

theorem comparedKey?_eq_none_iff {name : String} {q : Qualifier} :
    q.comparedKey? name = none ↔ ∀ k op, q ≠ keyValue k op (.placeholder name) := by
  rw [Option.eq_none_iff_forall_ne_some]
  constructor
  · intro h k op hq
    exact h k.text (comparedKey?_eq_some_iff.2 ⟨k, op, hq, rfl⟩)
  · intro h key hk
    obtain ⟨k, op, hq, -⟩ := comparedKey?_eq_some_iff.1 hk
    exact h k op hq

/-! ## Reading off the leaves -/

mutual

/-- The key for a name is that of the first leaf that has one. -/
theorem keyForBinding?_eq_findSome? (name : String) : ∀ q : Qualifier,
    q.keyForBinding? name = q.leaves.findSome? (comparedKey? name)
  | always _ => rfl
  | keyValue _ _ (.constant _) => rfl
  | keyValue key _ (.placeholder n) => by
    rw [leaves_of_isLeaf rfl, List.findSome?_singleton, keyForBinding?, comparedKey?, Operand.name?]
    simp only [Option.some.injEq]
  | keyComparison _ _ _ => rfl
  | not q => keyForBinding?_eq_findSome? name q
  | compound _ parts => keyForBindingIn?_eq_findSome? name parts
  | sql _ => rfl

theorem keyForBindingIn?_eq_findSome? (name : String) : ∀ qs : List Qualifier,
    keyForBindingIn? name qs = (leavesIn qs).findSome? (comparedKey? name)
  | [] => rfl
  | q :: qs => by
    rw [keyForBindingIn?, leavesIn, List.findSome?_append, keyForBinding?_eq_findSome? name q,
      keyForBindingIn?_eq_findSome? name qs]
    cases q.leaves.findSome? (comparedKey? name) <;> rfl

end

mutual

/-- The keys of a qualifier are the keys of its leaves. -/
theorem flatMap_keyOccurrences_leaves : ∀ q : Qualifier,
    q.leaves.flatMap keyOccurrences = q.keyOccurrences
  | always _ => rfl
  | keyValue _ _ _ => rfl
  | keyComparison _ _ _ => rfl
  | not q => flatMap_keyOccurrences_leaves q
  | compound _ parts => flatMap_keyOccurrences_leavesIn parts
  | sql _ => rfl

theorem flatMap_keyOccurrences_leavesIn : ∀ qs : List Qualifier,
    (leavesIn qs).flatMap keyOccurrences = keyOccurrencesIn qs
  | [] => rfl
  | q :: qs => by
    rw [leavesIn, keyOccurrencesIn, List.flatMap_append, flatMap_keyOccurrences_leaves q,
      flatMap_keyOccurrences_leavesIn qs]

end

variable {name : String} {q l : Qualifier}

theorem mem_referencedKeys_of_mem_leaves {key : String} (hl : l ∈ q.leaves)
    (hk : key ∈ l.keyOccurrences) : key ∈ q.referencedKeys := by
  rw [referencedKeys, List.mem_eraseDups, ← flatMap_keyOccurrences_leaves]
  exact List.mem_flatMap.2 ⟨l, hl, hk⟩

theorem mem_bindingKeys_of_mem_leaves {o : Occurrence} (hl : l ∈ q.leaves)
    (ho : o ∈ l.occurrences) : o.name ∈ q.bindingKeys := by
  rw [bindingKeys, List.mem_eraseDups, ← map_name_occurrences, ← flatMap_occurrences_leaves]
  exact List.mem_map_of_mem (List.mem_flatMap.2 ⟨l, hl, ho⟩)

theorem bindingKeys_ne_nil_iff : q.bindingKeys ≠ [] ↔ q.bindingOccurrences ≠ [] := by
  rw [bindingKeys]
  cases h : q.bindingOccurrences <;> simp [List.eraseDups_cons]

/-- There is a placeholder left if and only if there are names of placeholders. The key for a name
is that of the first leaf, from left to right, that compares a key with the placeholder of that
name, and there is none if and only if no leaf does. It is among the keys of the qualifier, and the
name is among the names. -/
theorem placeholders_agree (q : Qualifier) (name : String) :
    (q.hasUnresolvedBindings = true ↔ q.bindingKeys ≠ []) ∧
      (∀ key, q.keyForBinding? name = some key ↔
        ∃ before k op after, q.leaves = before ++ keyValue k op (.placeholder name) :: after ∧
          k.text = key ∧ ∀ k' op', keyValue k' op' (.placeholder name) ∉ before) ∧
      (q.keyForBinding? name = none ↔ ∀ k op, keyValue k op (.placeholder name) ∉ q.leaves) ∧
      ∀ key, q.keyForBinding? name = some key →
        key ∈ q.referencedKeys ∧ name ∈ q.bindingKeys := by
  simp only [keyForBinding?_eq_findSome?]
  refine ⟨?_, fun key => ?_, ?_, fun key h => ?_⟩
  · rw [hasUnresolvedBindings_eq, bindingKeys_ne_nil_iff]
    simp
  · rw [List.findSome?_eq_some_iff]
    simp only [comparedKey?_eq_some_iff, comparedKey?_eq_none_iff]
    constructor
    · rintro ⟨before, l, after, h₁, ⟨k, op, rfl, h₂⟩, h₃⟩
      exact ⟨before, k, op, after, h₁, h₂, fun k' op' h => h₃ _ h k' op' rfl⟩
    · rintro ⟨before, k, op, after, h₁, h₂, h₃⟩
      refine ⟨before, _, after, h₁, ⟨k, op, rfl, h₂⟩, ?_⟩
      rintro l hl k' op' rfl
      exact h₃ k' op' hl
  · rw [List.findSome?_eq_none_iff]
    simp only [comparedKey?_eq_none_iff]
    constructor
    · exact fun h k op hl => h _ hl k op rfl
    · rintro h l hl k op rfl
      exact h k op hl
  · obtain ⟨l, hl, h₁⟩ := List.exists_of_findSome?_eq_some h
    obtain ⟨k, op, rfl, rfl⟩ := comparedKey?_eq_some_iff.1 h₁
    exact ⟨mem_referencedKeys_of_mem_leaves hl (by simp [keyOccurrences]),
      mem_bindingKeys_of_mem_leaves (o := ⟨name, false⟩) hl (by simp [occurrences])⟩

/-- A placeholder in raw SQL has a name, but no key. -/
example : (sql [.placeholder "n"]).bindingKeys = ["n"] ∧
    (sql [.placeholder "n"]).keyForBinding? "n" = none := by
  decide

end RecordQuery.Qualifier
