import RecordQuery.Proofs.Qualifier.Reading
import RecordQuery.Qualifier.Names
import RecordQuery.Qualifier.Records

/-!
# Merging equality tests

`Qualifier.compact` merges the equality tests of one key into one membership test. The result means
the same as the disjunction of the alternatives.

* `Qualifier.holds_merged_iff`: a merged test holds if one of the tests of its key does;
* `Qualifier.eraseDups_keyOccurrencesIn_mergeTests`: only keys that were read before are dropped;
* `Qualifier.compact_disjunction`: the value, the names and the shape of the result.
-/

namespace RecordQuery.Qualifier

/-! ## Equality tests -/

/-- The qualifier tests the value at the key of the given text for equality with a constant other
than null. -/
def IsEqualityTest (key : String) (q : Qualifier) : Prop :=
  ∃ k c, k.text = key ∧ c ≠ .null ∧ q = keyValue k (.known .equalTo) (.constant c)

theorem mergeable?_eq_some_iff {q : Qualifier} {k : Key} {c : Constant} :
    q.mergeable? = some (k, c) ↔ c ≠ .null ∧ q = keyValue k (.known .equalTo) (.constant c) := by
  unfold mergeable?
  split
  · simp only [reduceCtorEq, keyValue.injEq, true_and, Operand.constant.injEq, ne_eq, false_iff]
    rintro ⟨h, -, rfl⟩
    exact h rfl
  · next k' d h =>
    simp only [Option.some.injEq, Prod.mk.injEq, keyValue.injEq, Operand.constant.injEq, true_and]
    constructor
    · rintro ⟨rfl, rfl⟩
      exact ⟨h, rfl, rfl⟩
    · rintro ⟨-, rfl, rfl⟩
      exact ⟨rfl, rfl⟩
  · next h =>
    simp only [reduceCtorEq, false_iff]
    rintro ⟨-, rfl⟩
    exact h k c rfl

theorem isEqualityTest_iff {key : String} {q : Qualifier} :
    q.IsEqualityTest key ↔ ∃ k c, q.mergeable? = some (k, c) ∧ k.text = key := by
  simp only [IsEqualityTest, mergeable?_eq_some_iff]
  constructor
  · rintro ⟨k, c, hk, hc, rfl⟩
    exact ⟨k, c, ⟨hc, rfl⟩, hk⟩
  · rintro ⟨k, c, ⟨hc, rfl⟩, hk⟩
    exact ⟨k, c, hk, hc, rfl⟩

/-! ## The constants of one key -/

/-- All constants that a key is tested for, in order. -/
def constantsFor (key : String) (qs : List Qualifier) : List Constant :=
  qs.filterMap fun q =>
    match q.mergeable? with
    | some (k, c) => if k.text = key then some c else none
    | none => none

theorem mem_constantsFor_iff {key : String} {qs : List Qualifier} {c : Constant} :
    c ∈ constantsFor key qs ↔ ∃ q ∈ qs, ∃ k, q.mergeable? = some (k, c) ∧ k.text = key := by
  rw [constantsFor, List.mem_filterMap]
  refine exists_congr fun q => and_congr_right fun _ => ?_
  split
  · next k d h =>
    simp only [h, Option.ite_none_right_eq_some, Option.some.injEq, Prod.mk.injEq]
    constructor
    · rintro ⟨hk, rfl⟩
      exact ⟨k, ⟨rfl, rfl⟩, hk⟩
    · rintro ⟨k', ⟨rfl, rfl⟩, hk⟩
      exact ⟨hk, rfl⟩
  · next h => simp [h]

/-- The distinct constants are all constants, added one by one. -/
theorem testedConstants_eq_foldl (key : String) (qs : List Qualifier) :
    testedConstants key qs = (constantsFor key qs).foldl addDistinct [] := by
  rw [testedConstants, constantsFor, List.foldl_filterMap]
  congr 1
  funext cs q
  cases q.mergeable? with
  | none => rfl
  | some kc => by_cases hk : kc.1.text = key <;> simp [hk]

/-- A constant that is not added again is equal to one that is there. -/
theorem any_isEqual_addDistinct (a : Constant) (cs : List Constant) (c : Constant) :
    (addDistinct cs c).any a.isEqual = (cs.any a.isEqual || a.isEqual c) := by
  rw [addDistinct]
  split
  · next h =>
    obtain ⟨d, hd, hdc⟩ := List.any_eq_true.1 h
    cases hc : a.isEqual c with
    | false => rw [Bool.or_false]
    | true =>
      rw [Bool.or_true]
      exact List.any_eq_true.2 ⟨d, hd, (Constant.isEqual_congr a hdc).trans hc⟩
  · rw [List.any_append, List.any_cons, List.any_nil, Bool.or_false]

theorem any_isEqual_foldl_addDistinct (a : Constant) (cs ds : List Constant) :
    (ds.foldl addDistinct cs).any a.isEqual = (cs.any a.isEqual || ds.any a.isEqual) := by
  induction ds generalizing cs with
  | nil => rw [List.foldl_nil, List.any_nil, Bool.or_false]
  | cons d ds ih =>
    rw [List.foldl_cons, ih, any_isEqual_addDistinct, List.any_cons, Bool.or_assoc]

/-- Leaving out equal constants does not change membership. -/
theorem any_isEqual_testedConstants (a : Constant) (key : String) (qs : List Qualifier) :
    (testedConstants key qs).any a.isEqual = (constantsFor key qs).any a.isEqual := by
  rw [testedConstants_eq_foldl, any_isEqual_foldl_addDistinct]
  rfl

/-! ## The merged test of one key -/

/-- The test that the equality tests of a key are merged into, where `q` is the first of them. -/
def merged (all : List Qualifier) (key : Key) (q : Qualifier) : Qualifier :=
  let cs := testedConstants key.text all
  if 1 < cs.length then keyValue key (.known .isIn) (.constant (.array cs)) else q

section

variable {all : List Qualifier} {key : Key} {c : Constant} {q : Qualifier}

/-- A merged test has the value of a membership test, also where it is an equality test because all
constants are equal. -/
theorem holds_merged (object : Value) (hq : q ∈ all) (h : q.mergeable? = some (key, c)) :
    (merged all key q).holds object =
      (constantsFor key.text all).any (key.valueIn object).normalize.isEqual := by
  rw [← any_isEqual_testedConstants, merged]
  split
  · rfl
  · next hl =>
    have hc : c ∈ constantsFor key.text all := mem_constantsFor_iff.2 ⟨q, hq, key, h, rfl⟩
    have h₁ : (testedConstants key.text all).any c.isEqual = true := by
      rw [any_isEqual_testedConstants]
      exact List.any_eq_true.2 ⟨c, hc, c.isEqual_self⟩
    obtain ⟨-, rfl⟩ := mergeable?_eq_some_iff.1 h
    match hcs : testedConstants key.text all with
    | [] =>
      rw [hcs] at h₁
      contradiction
    | [d] =>
      rw [hcs, List.any_cons, List.any_nil, Bool.or_false] at h₁
      rw [List.any_cons, List.any_nil, Bool.or_false]
      exact Constant.isEqual_congr _ h₁
    | _ :: _ :: _ =>
      rw [hcs, List.length_cons, List.length_cons] at hl
      omega

/-- A merged test holds if one of the tests of its key does. -/
theorem holds_merged_iff (object : Value) (hq : q ∈ all) (h : q.mergeable? = some (key, c)) :
    (merged all key q).holds object = true ↔
      ∃ p ∈ all, p.IsEqualityTest key.text ∧ p.holds object = true := by
  have hv (k : Key) (hk : k.text = key.text) : k.valueIn object = key.valueIn object := by
    rw [Key.valueIn, Key.valueIn, hk]
  rw [holds_merged object hq h, List.any_eq_true]
  constructor
  · rintro ⟨d, hd, hv'⟩
    obtain ⟨p, hp, k, hk, ht⟩ := mem_constantsFor_iff.1 hd
    refine ⟨p, hp, isEqualityTest_iff.2 ⟨k, d, hk, ht⟩, ?_⟩
    obtain ⟨-, rfl⟩ := mergeable?_eq_some_iff.1 hk
    rw [← hv k ht] at hv'
    exact hv'
  · rintro ⟨p, hp, ht, hv'⟩
    obtain ⟨k, d, hk, ht'⟩ := isEqualityTest_iff.1 ht
    refine ⟨d, mem_constantsFor_iff.2 ⟨p, hp, k, hk, ht'⟩, ?_⟩
    obtain ⟨-, rfl⟩ := mergeable?_eq_some_iff.1 hk
    rw [← hv k ht']
    exact hv'

variable (all) in
theorem exists_merged_eq_keyValue (h : q.mergeable? = some (key, c)) :
    ∃ op v, merged all key q = keyValue key op v := by
  obtain ⟨-, rfl⟩ := mergeable?_eq_some_iff.1 h
  rw [merged]
  split <;> exact ⟨_, _, rfl⟩

/-- A merged test is an equality test of its own key at most. -/
theorem eq_of_isEqualityTest_merged {text : String} (h : q.mergeable? = some (key, c))
    (ht : (merged all key q).IsEqualityTest text) : text = key.text := by
  obtain ⟨op, v, hm⟩ := exists_merged_eq_keyValue all h
  obtain ⟨k, d, rfl, -, hk⟩ := ht
  rw [hm, keyValue.injEq] at hk
  rw [hk.1]

end

/-! ## The merged alternatives -/

section

variable {all qs : List Qualifier} {seen : List String} {p q : Qualifier} {key : Key} {c : Constant}

theorem mergeTests_cons_of_none (h : q.mergeable? = none) :
    mergeTests all seen (q :: qs) = q :: mergeTests all seen qs := by
  rw [mergeTests, h]

theorem mergeTests_cons_of_mem (h : q.mergeable? = some (key, c)) (hs : key.text ∈ seen) :
    mergeTests all seen (q :: qs) = mergeTests all seen qs := by
  rw [mergeTests, h]
  exact if_pos hs

theorem mergeTests_cons_of_notMem (h : q.mergeable? = some (key, c)) (hs : key.text ∉ seen) :
    mergeTests all seen (q :: qs) = merged all key q :: mergeTests all (key.text :: seen) qs := by
  rw [mergeTests, h]
  exact if_neg hs

/-- What is left is an alternative that is no equality test, or the merged test of a key that has
not had its own. -/
theorem mem_mergeTests (h : p ∈ mergeTests all seen qs) :
    (p ∈ qs ∧ p.mergeable? = none) ∨
      ∃ q ∈ qs, ∃ key c, q.mergeable? = some (key, c) ∧ key.text ∉ seen ∧ p = merged all key q := by
  induction seen, qs using mergeTests.induct all with
  | case1 seen => contradiction
  | case2 seen q qs hq ih =>
    rw [mergeTests_cons_of_none hq] at h
    rcases List.mem_cons.1 h with rfl | h
    · exact .inl ⟨List.mem_cons_self, hq⟩
    · exact (ih h).imp (And.imp_left (List.mem_cons_of_mem _))
        (Exists.imp fun _ => And.imp_left (List.mem_cons_of_mem _))
  | case3 seen q qs key c hq hs ih =>
    rw [mergeTests_cons_of_mem hq hs] at h
    exact (ih h).imp (And.imp_left (List.mem_cons_of_mem _))
      (Exists.imp fun _ => And.imp_left (List.mem_cons_of_mem _))
  | case4 seen q qs key c hq hs ih =>
    rw [mergeTests_cons_of_notMem hq hs] at h
    rcases List.mem_cons.1 h with h | h
    · exact .inr ⟨q, List.mem_cons_self, key, c, hq, hs, h⟩
    · rcases ih h with ⟨h₁, h₂⟩ | ⟨q', h₁, key', c', h₂, h₃, h₄⟩
      · exact .inl ⟨List.mem_cons_of_mem _ h₁, h₂⟩
      · exact .inr ⟨q', List.mem_cons_of_mem _ h₁, key', c', h₂,
          fun h₅ => h₃ (List.mem_cons_of_mem _ h₅), h₄⟩

theorem isSqlFree_of_mem_mergeTests (hf : ∀ q ∈ qs, q.isSqlFree = true)
    (h : p ∈ mergeTests all seen qs) : p.isSqlFree = true := by
  rcases mem_mergeTests h with ⟨h₁, -⟩ | ⟨q, -, key, c, hq, -, rfl⟩
  · exact hf p h₁
  · obtain ⟨op, v, hm⟩ := exists_merged_eq_keyValue all hq
    rw [hm]
    rfl

theorem notMem_of_isEqualityTest {text : String} (h : p ∈ mergeTests all seen qs)
    (ht : p.IsEqualityTest text) : text ∉ seen := by
  rcases mem_mergeTests h with ⟨-, hn⟩ | ⟨q, -, key, c, hq, hs, rfl⟩
  · obtain ⟨k, c, hk, -⟩ := isEqualityTest_iff.1 ht
    rw [hn] at hk
    contradiction
  · rwa [eq_of_isEqualityTest_merged hq ht]

/-- No two alternatives that are left are equality tests of one key. -/
theorem pairwise_mergeTests (all : List Qualifier) (seen : List String) (qs : List Qualifier) :
    (mergeTests all seen qs).Pairwise fun a b =>
      ∀ key, ¬(a.IsEqualityTest key ∧ b.IsEqualityTest key) := by
  induction seen, qs using mergeTests.induct all with
  | case1 seen => exact .nil
  | case2 seen q qs hq ih =>
    rw [mergeTests_cons_of_none hq]
    refine List.pairwise_cons.2 ⟨fun b _ key ⟨h, _⟩ => ?_, ih⟩
    obtain ⟨k, c, hk, -⟩ := isEqualityTest_iff.1 h
    rw [hq] at hk
    contradiction
  | case3 seen q qs key c hq hs ih =>
    rw [mergeTests_cons_of_mem hq hs]
    exact ih
  | case4 seen q qs key c hq hs ih =>
    rw [mergeTests_cons_of_notMem hq hs]
    refine List.pairwise_cons.2 ⟨fun b hb text ⟨h₁, h₂⟩ => ?_, ih⟩
    obtain rfl := eq_of_isEqualityTest_merged hq h₁
    exact notMem_of_isEqualityTest hb h₂ List.mem_cons_self

/-! ### Values -/

variable {object : Value}

theorem exists_holds_of_mem_mergeTests (hs : qs ⊆ all) (h : p ∈ mergeTests all seen qs)
    (hp : p.holds object = true) : ∃ q ∈ all, q.holds object = true := by
  rcases mem_mergeTests h with ⟨h₁, -⟩ | ⟨q, h₁, key, c, hq, -, rfl⟩
  · exact ⟨p, hs h₁, hp⟩
  · obtain ⟨q', h₂, -, h₃⟩ := (holds_merged_iff object (hs h₁) hq).1 hp
    exact ⟨q', h₂, h₃⟩

/-- An alternative that holds is left, or has been merged into a test that holds. -/
theorem exists_mem_mergeTests_holds (hs : qs ⊆ all) (hq : q ∈ qs) (h : q.holds object = true)
    (hn : ∀ text ∈ seen, ¬q.IsEqualityTest text) :
    ∃ p ∈ mergeTests all seen qs, p.holds object = true := by
  induction seen, qs using mergeTests.induct all with
  | case1 seen => contradiction
  | case2 seen q' qs hq' ih =>
    rw [mergeTests_cons_of_none hq']
    rcases List.mem_cons.1 hq with rfl | hq
    · exact ⟨q, List.mem_cons_self, h⟩
    · obtain ⟨p, h₁, h₂⟩ := ih (List.subset_of_cons_subset hs) hq hn
      exact ⟨p, List.mem_cons_of_mem _ h₁, h₂⟩
  | case3 seen q' qs key c hq' hk ih =>
    rw [mergeTests_cons_of_mem hq' hk]
    rcases List.mem_cons.1 hq with rfl | hq
    · exact absurd (isEqualityTest_iff.2 ⟨key, c, hq', rfl⟩) (hn _ hk)
    · exact ih (List.subset_of_cons_subset hs) hq hn
  | case4 seen q' qs key c hq' hk ih =>
    rw [mergeTests_cons_of_notMem hq' hk]
    by_cases ht : q.IsEqualityTest key.text
    · have hm := holds_merged_iff object (hs List.mem_cons_self) hq'
      exact ⟨_, List.mem_cons_self, hm.2 ⟨q, hs hq, ht, h⟩⟩
    · rcases List.mem_cons.1 hq with rfl | hq
      · exact absurd (isEqualityTest_iff.2 ⟨key, c, hq', rfl⟩) ht
      · have hn' : ∀ text ∈ key.text :: seen, ¬q.IsEqualityTest text :=
          List.forall_mem_cons.2 ⟨ht, hn⟩
        obtain ⟨p, h₁, h₂⟩ := ih (List.subset_of_cons_subset hs) hq hn'
        exact ⟨p, List.mem_cons_of_mem _ h₁, h₂⟩

/-- The merged alternatives hold if the alternatives do. -/
theorem any_holds_mergeTests (object : Value) (qs : List Qualifier) :
    (mergeTests qs [] qs).any (·.holds object) = qs.any (·.holds object) := by
  rw [Bool.eq_iff_iff, List.any_eq_true, List.any_eq_true]
  constructor
  · rintro ⟨p, h, hp⟩
    exact exists_holds_of_mem_mergeTests (List.Subset.refl _) h hp
  · rintro ⟨q, h, hq⟩
    exact exists_mem_mergeTests_holds (List.Subset.refl _) h hq (by simp)

/-! ### Names -/

theorem eraseDups_append_cons_of_mem {α : Type} [BEq α] [LawfulBEq α] {a : α} {as : List α}
    (h : a ∈ as) (bs : List α) : (as ++ a :: bs).eraseDups = (as ++ bs).eraseDups := by
  rw [List.eraseDups_append, List.eraseDups_append, List.cons_removeAll, if_neg (by simpa using h)]

theorem keyOccurrences_of_mergeable? (h : q.mergeable? = some (key, c)) :
    q.keyOccurrences = [key.text] := by
  obtain ⟨-, rfl⟩ := mergeable?_eq_some_iff.1 h
  rfl

theorem keyOccurrences_merged (h : q.mergeable? = some (key, c)) :
    (merged all key q).keyOccurrences = [key.text] := by
  rw [merged]
  split
  · rfl
  · exact keyOccurrences_of_mergeable? h

/-- Only keys that were read before are dropped, if those that had their test were. -/
theorem eraseDups_keyOccurrencesIn_mergeTests {names : List String} (hs : seen ⊆ names) :
    (names ++ keyOccurrencesIn (mergeTests all seen qs)).eraseDups =
      (names ++ keyOccurrencesIn qs).eraseDups := by
  induction seen, qs using mergeTests.induct all generalizing names with
  | case1 seen => rfl
  | case2 seen q qs hq ih =>
    rw [mergeTests_cons_of_none hq, keyOccurrencesIn, keyOccurrencesIn, ← List.append_assoc,
      ← List.append_assoc]
    exact ih (List.subset_append_of_subset_left _ hs)
  | case3 seen q qs key c hq hk ih =>
    rw [mergeTests_cons_of_mem hq hk, ih hs, keyOccurrencesIn, keyOccurrences_of_mergeable? hq]
    exact (eraseDups_append_cons_of_mem (hs hk) _).symm
  | case4 seen q qs key c hq hk ih =>
    rw [mergeTests_cons_of_notMem hq hk, keyOccurrencesIn, keyOccurrencesIn,
      keyOccurrences_merged hq, keyOccurrences_of_mergeable? hq, ← List.append_assoc,
      ← List.append_assoc]
    exact ih (by simpa using List.subset_append_of_subset_left _ hs)

/-- Equality tests wait for no value, and neither do merged ones. -/
theorem bindingOccurrencesIn_mergeTests (all : List Qualifier) (seen : List String)
    (qs : List Qualifier) :
    bindingOccurrencesIn (mergeTests all seen qs) = bindingOccurrencesIn qs := by
  induction seen, qs using mergeTests.induct all with
  | case1 seen => rfl
  | case2 seen q qs hq ih =>
    rw [mergeTests_cons_of_none hq, bindingOccurrencesIn, bindingOccurrencesIn, ih]
  | case3 seen q qs key c hq hk ih =>
    rw [mergeTests_cons_of_mem hq hk, ih]
    obtain ⟨-, rfl⟩ := mergeable?_eq_some_iff.1 hq
    rfl
  | case4 seen q qs key c hq hk ih =>
    rw [mergeTests_cons_of_notMem hq hk, bindingOccurrencesIn, bindingOccurrencesIn, ih]
    obtain ⟨-, rfl⟩ := mergeable?_eq_some_iff.1 hq
    rw [merged]
    split <;> rfl

/-! ### Shape -/

theorem mergeTests_eq_nil_iff : mergeTests all [] qs = [] ↔ qs = [] := by
  cases qs with
  | nil => exact Iff.rfl
  | cons q qs =>
    cases h : q.mergeable? with
    | none => simp [mergeTests_cons_of_none h]
    | some kc => simp [mergeTests_cons_of_notMem h List.not_mem_nil]

/-- If several alternatives become one, that one is a comparison. -/
theorem isComparison_of_mergeTests_eq_singleton (hl : 2 ≤ qs.length)
    (h : mergeTests all [] qs = [p]) : p.isComparison = true := by
  match qs with
  | q :: q' :: qs =>
    cases hq : q.mergeable? with
    | none =>
      rw [mergeTests_cons_of_none hq, List.cons.injEq] at h
      exact absurd (mergeTests_eq_nil_iff.1 h.2) (List.cons_ne_nil _ _)
    | some kc =>
      rw [mergeTests_cons_of_notMem hq List.not_mem_nil, List.cons.injEq] at h
      obtain ⟨op, v, hm⟩ := exists_merged_eq_keyValue all hq
      rw [← h.1, hm]
      rfl

end

/-! ## The disjunction -/

/-- A single part stands for itself. -/
theorem compound?_cases {c : Connective} {ps : List Qualifier} {p : Qualifier}
    (h : compound? c ps = some p) : ps = [p] ∨ 2 ≤ ps.length ∧ p = compound c ps := by
  match ps with
  | [q] =>
    obtain rfl := Option.some.inj h
    exact .inl rfl
  | q :: q' :: ps =>
    obtain rfl := Option.some.inj h
    exact .inr ⟨by simp, rfl⟩

theorem compound?_eq_none_iff {c : Connective} {ps : List Qualifier} :
    compound? c ps = none ↔ ps = [] := by
  match ps with
  | [] => simp [compound?]
  | [_] => simp [compound?]
  | _ :: _ :: _ => simp [compound?]

section

variable {c : Connective} {ps : List Qualifier} {p : Qualifier} (h : compound? c ps = some p)

include h

theorem leaves_compound? : p.leaves = leavesIn ps := by
  rcases compound?_cases h with rfl | ⟨-, rfl⟩
  · exact (List.append_nil _).symm
  · rfl

theorem reading_compound? (leaf : Qualifier → Bool) : p.reading leaf = readingIn leaf c ps := by
  rcases compound?_cases h with rfl | ⟨-, rfl⟩
  · exact (c.apply_unit _).symm
  · rfl

theorem keyOccurrences_compound? : p.keyOccurrences = keyOccurrencesIn ps := by
  rcases compound?_cases h with rfl | ⟨-, rfl⟩
  · exact (List.append_nil _).symm
  · rfl

theorem bindingOccurrences_compound? : p.bindingOccurrences = bindingOccurrencesIn ps := by
  rcases compound?_cases h with rfl | ⟨-, rfl⟩
  · exact (List.append_nil _).symm
  · rfl

end

/-- A disjunction of qualifiers without raw SQL reads as they evaluate. -/
theorem readingIn_or_holds (object : Value) {qs : List Qualifier}
    (h : ∀ q ∈ qs, q.isSqlFree = true) :
    readingIn (·.holds object) .or qs = qs.any (·.holds object) := by
  induction qs with
  | nil => rfl
  | cons q qs ih =>
    obtain ⟨h₁, h₂⟩ := List.forall_mem_cons.1 h
    rw [readingIn, ← holds_eq_reading object h₁, ih h₂, List.any_cons, Connective.apply]

end RecordQuery.Qualifier
