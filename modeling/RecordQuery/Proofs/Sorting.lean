import RecordQuery.Proofs.Key
import RecordQuery.Proofs.Order
import RecordQuery.Proofs.StableSort
import RecordQuery.SortOrdering

/-!
# Sorting by orderings

An ordering puts an object before another one (`SortOrdering.Before`), and so does a list of them
by the first that tells the two apart (`BeforeBy`). On objects whose values are null or of one kind
these are orders, because there the comparison is that of the ranks of constants.

* `isStableSort_sort`: what the sort does to all objects, those that are missing included;
* `sort_append`: orderings compose;
* `isSortedBy_sort`: the sorted list is in the order of the orderings.

What is missing altogether is put at the end, whatever the orderings say (`isSortedBy_sort_iff`).
-/

namespace RecordQuery

/-- A constant comes before another one in ascending order: null before all else, and of two
constants of one kind the lesser one. No array comes before another one. -/
inductive Constant.Before : Constant → Constant → Prop
  | null {c : Constant} : c ≠ .null → Before .null c
  | bool : Before (.bool false) (.bool true)
  | number {x y : Double} : x.toInt < y.toInt → Before (.number x) (.number y)
  | string {s t : String} : Text.order s t = .lt → Before (.string s) (.string t)
  | date {s t : Instant} : s.millis < t.millis → Before (.date s) (.date t)

namespace SortOrdering

/-! ## One ordering -/

section

variable {a b : Constant}

theorem orderConstants_of_ne_null (ha : a ≠ .null) (hb : b ≠ .null) :
    orderConstants a b = (a.order? b).getD .eq := by
  cases a <;> cases b <;> trivial

theorem orderConstants_swap (a b : Constant) :
    orderConstants b a = (orderConstants a b).swap := by
  by_cases ha : a = .null
  · subst ha
    cases b <;> rfl
  · by_cases hb : b = .null
    · subst hb
      cases a <;> rfl
    · rw [orderConstants_of_ne_null hb ha, orderConstants_of_ne_null ha hb, a.order?_swap b]
      cases a.order? b <;> rfl

theorem orderConstants_eq_lt_iff : orderConstants a b = .lt ↔ a.Before b := by
  constructor
  · intro h
    cases a <;> cases b <;> try contradiction
    case bool.bool p q => cases p <;> cases q <;> first | exact .bool | contradiction
    case number.number => exact .number (Int.compare_eq_lt.1 h)
    case string.string => exact .string h
    case date.date => exact .date (Int.compare_eq_lt.1 h)
    all_goals exact .null nofun
  · intro h
    cases h with
    | null hb => cases b <;> first | rfl | contradiction
    | bool => rfl
    | number h => exact Int.compare_eq_lt.2 h
    | string h => exact h
    | date h => exact Int.compare_eq_lt.2 h

/-- Among null and the constants of one kind the order is that of the ranks. -/
theorem orderConstants_eq_compare_rank {kind : String} (ha : a = .null ∨ a.kind = kind)
    (hb : b = .null ∨ b.kind = kind) : orderConstants a b = Ord.compare a.rank b.rank := by
  by_cases ha₀ : a = .null
  · subst ha₀
    cases b <;> rfl
  · by_cases hb₀ : b = .null
    · subst hb₀
      cases a <;> rfl
    · have hk : a.kind = b.kind := (ha.resolve_left ha₀).trans (hb.resolve_left hb₀).symm
      rw [orderConstants_of_ne_null ha₀ hb₀]
      cases ho : a.isOrdered with
      | true =>
        rw [Constant.order?_eq_some_iff.2 ⟨hk, ho, rfl⟩]
        rfl
      | false =>
        -- Only arrays are left, and they are all alike.
        cases a <;> try contradiction
        cases b <;> first | rfl | simp [Constant.kind] at hk

end

/-- An object comes before another one by an ordering. Orderings with an unknown selector put
nothing before anything. -/
def Before (o : SortOrdering) (a b : Value) : Prop :=
  o.selector.isKnown = true ∧
    if o.selector.isDescending then (o.sortValue b).Before (o.sortValue a)
    else (o.sortValue a).Before (o.sortValue b)

variable (o : SortOrdering) (os : List SortOrdering) (a b : Value)

theorem compare_swap : o.compare b a = (o.compare a b).swap := by
  unfold compare
  split
  · rw [orderConstants_swap (o.sortValue a)]
    cases o.selector.isDescending <;> rfl
  · rfl

variable {o os a b}

theorem compare_eq_lt_iff : o.compare a b = .lt ↔ o.Before a b := by
  unfold compare Before
  cases o.selector.isKnown with
  | false => simp
  | true =>
    cases o.selector.isDescending with
    | false => simp [orderConstants_eq_lt_iff]
    | true =>
      simp only [if_true, true_and]
      rw [← orderConstants_swap, orderConstants_eq_lt_iff]

theorem compare_eq_gt_iff : o.compare a b = .gt ↔ o.Before b a := by
  rw [← compare_eq_lt_iff, compare_swap o a b, Ordering.swap_eq_lt]

/-! ## Orderings in turn -/

/-- No ordering tells the two objects apart. -/
def Ties (os : List SortOrdering) (a b : Value) : Prop :=
  ∀ o ∈ os, ¬o.Before a b ∧ ¬o.Before b a

/-- An object comes before another one by the first ordering that tells them apart. -/
inductive BeforeBy : List SortOrdering → Value → Value → Prop
  | here {o : SortOrdering} {os : List SortOrdering} {a b : Value} :
    o.Before a b → BeforeBy (o :: os) a b
  | later {o : SortOrdering} {os : List SortOrdering} {a b : Value} :
    ¬o.Before a b → ¬o.Before b a → BeforeBy os a b → BeforeBy (o :: os) a b

theorem compare_eq_eq_iff : o.compare a b = .eq ↔ ¬o.Before a b ∧ ¬o.Before b a := by
  rw [← compare_eq_lt_iff, ← compare_eq_gt_iff]
  cases o.compare a b <;> simp

theorem compareBy_append (p s : List SortOrdering) (a b : Value) :
    compareBy (p ++ s) a b = (compareBy p a b).then (compareBy s a b) := by
  induction p with
  | nil => rfl
  | cons o p ih => rw [List.cons_append, compareBy, compareBy, ih, Ordering.then_assoc]

theorem compareBy_swap (os : List SortOrdering) (a b : Value) :
    compareBy os b a = (compareBy os a b).swap := by
  induction os with
  | nil => rfl
  | cons o os ih => rw [compareBy, compareBy, ih, compare_swap o a b, Ordering.swap_then]

theorem compareBy_eq_eq_iff : compareBy os a b = .eq ↔ Ties os a b := by
  induction os with
  | nil => simp [compareBy, Ties]
  | cons o os ih =>
    rw [compareBy, Ordering.then_eq_eq, ih, compare_eq_eq_iff, Ties, Ties, List.forall_mem_cons]

theorem compareBy_eq_lt_iff : compareBy os a b = .lt ↔ BeforeBy os a b := by
  induction os with
  | nil => exact ⟨nofun, nofun⟩
  | cons o os ih =>
    rw [compareBy, Ordering.then_eq_lt, ih, compare_eq_lt_iff, compare_eq_eq_iff]
    constructor
    · rintro (h | ⟨⟨h₁, h₂⟩, h₃⟩)
      · exact .here h
      · exact .later h₁ h₂ h₃
    · rintro (h | ⟨h₁, h₂, h₃⟩)
      · exact .inl h
      · exact .inr ⟨⟨h₁, h₂⟩, h₃⟩

/-! ## Objects with values of one kind -/

/-- The values at the key of an ordering, as constants, are null or of one kind. -/
def HasOneKind (o : SortOrdering) (objects : List Value) : Prop :=
  ∃ kind : String, ∀ v ∈ objects,
    (o.key.valueIn v).normalize = .null ∨ (o.key.valueIn v).normalize.kind = kind

/-- Every ordering with a known selector finds values of one kind. -/
def HaveOneKind (os : List SortOrdering) (objects : List Value) : Prop :=
  ∀ o ∈ os, o.selector.isKnown = true → o.HasOneKind objects

variable {objects : List Value}

theorem HasOneKind.mono {objects' : List Value} (h : o.HasOneKind objects)
    (hs : objects' ⊆ objects) : o.HasOneKind objects' := by
  obtain ⟨kind, hk⟩ := h
  exact ⟨kind, fun v hv => hk v (hs hv)⟩

theorem HasOneKind.sortValue (h : o.HasOneKind objects) :
    ∃ kind : String, ∀ v ∈ objects, o.sortValue v = .null ∨ (o.sortValue v).kind = kind := by
  obtain ⟨kind, hk⟩ := h
  refine ⟨kind, fun v hv => ?_⟩
  unfold SortOrdering.sortValue
  have h₁ := hk v hv
  split
  · next s hs =>
    rw [hs] at h₁
    exact .inr (h₁.resolve_left nofun)
  · exact h₁

/-- Objects with values of one kind are ordered without contradictions. -/
theorem transCmp_compare (h : o.selector.isKnown = true → o.HasOneKind objects) :
    Std.TransCmp fun i j : Fin objects.length => o.compare objects[i] objects[j] := by
  cases hk : o.selector.isKnown with
  | false =>
    simp only [compare, hk]
    exact { eq_swap := rfl, isLE_trans := fun _ _ => rfl }
  | true =>
    obtain ⟨kind, hv⟩ := (h hk).sortValue
    let rank (i : Fin objects.length) : Option (List Int) := (o.sortValue objects[i]).rank
    have hr (i j : Fin objects.length) :
        orderConstants (o.sortValue objects[i]) (o.sortValue objects[j]) = compareOn rank i j :=
      orderConstants_eq_compare_rank (hv _ (List.getElem_mem _)) (hv _ (List.getElem_mem _))
    cases hd : o.selector.isDescending with
    | false =>
      simp only [compare, hk, hd, hr]
      exact inferInstanceAs (Std.TransCmp (compareOn rank))
    | true =>
      have hs (i j : Fin objects.length) : (compareOn rank i j).swap = compareOn rank j i :=
        Std.OrientedCmp.eq_swap.symm
      simp only [compare, hk, hd, hr, hs, if_true]
      exact Std.TransCmp.opposite

theorem transCmp_compareBy (h : HaveOneKind os objects) :
    Std.TransCmp fun i j : Fin objects.length => compareBy os objects[i] objects[j] := by
  induction os with
  | nil => exact { eq_swap := rfl, isLE_trans := fun _ _ => rfl }
  | cons o os ih =>
    obtain ⟨h₁, h₂⟩ := List.forall_mem_cons.1 h
    have := transCmp_compare h₁
    have := ih h₂
    exact inferInstanceAs (Std.TransCmp (compareLex
      (fun i j : Fin objects.length => o.compare objects[i] objects[j])
      (fun i j => compareBy os objects[i] objects[j])))

/-! ## The sort -/

theorem sort_of_ne_nil (hos : os ≠ []) (objects : List Value) :
    sort os objects = (objects.filter isPresent).mergeSort (fun a b => (compareBy os a b).isLE) ++
      objects.filter fun v => !isPresent v := by
  rw [sort, if_neg (by simpa using hos)]

theorem sort_perm (os : List SortOrdering) (objects : List Value) :
    (sort os objects).Perm objects := by
  rw [sort]
  split
  · rfl
  · exact ((List.mergeSort_perm _ _).append_right _).trans (List.filter_append_perm _ _)

theorem mem_sort {v : Value} : v ∈ sort os objects ↔ v ∈ objects :=
  (sort_perm os objects).mem_iff

theorem compareBy_self (os : List SortOrdering) (v : Value) : compareBy os v v = .eq := by
  have h := compareBy_swap os v v
  cases h₁ : compareBy os v v <;> simp_all

/-- The sort is stable, and what is missing altogether comes last in it. -/
theorem isStableSort_sort (h : HaveOneKind os objects) (hos : os ≠ []) :
    IsStableSort (dividedBy isPresent (compareBy os)) objects (sort os objects) := by
  have := transCmp_compareBy h
  rw [sort_of_ne_nil hos]
  refine isStableSort_mergeSort_append fun a b ha hb => ?_
  cases a <;> cases b <;> first | contradiction | exact compareBy_self os _

theorem orientedCmp_dividedBy (os : List SortOrdering) (objects : List Value) :
    Std.OrientedCmp fun i j : Fin objects.length =>
      dividedBy isPresent (compareBy os) objects[i] objects[j] where
  eq_swap {i j} := by
    rw [dividedBy, dividedBy, Ordering.swap_then, ← compareBy_swap, ← Std.OrientedCmp.eq_swap]

theorem dividedBy_append (p s : List SortOrdering) (a b : Value) :
    (dividedBy isPresent (compareBy p) a b).then (dividedBy isPresent (compareBy s) a b) =
      dividedBy isPresent (compareBy (p ++ s)) a b := by
  simp only [dividedBy, compareBy_append]
  cases isPresent a <;> cases isPresent b <;> rfl

/-- Sorting by a list of orderings is sorting by its end first and then by its beginning. -/
theorem sort_append {p s : List SortOrdering} (h : HaveOneKind (p ++ s) objects) :
    sort (p ++ s) objects = sort p (sort s objects) := by
  by_cases hp : p = []
  · subst hp
    rfl
  · by_cases hs : s = []
    · subst hs
      rw [List.append_nil]
      rfl
    · have h₁ : HaveOneKind s objects := fun o ho => h o (List.mem_append_right p ho)
      have h₂ : HaveOneKind p (sort s objects) := fun o ho hk =>
        (h o (List.mem_append_left s ho) hk).mono (sort_perm s objects).subset
      have := orientedCmp_dividedBy (p ++ s) objects
      refine (isStableSort_sort h (by simp [hp])).unique ?_
      rw [← funext₂ (dividedBy_append p s)]
      exact (isStableSort_sort h₁ hs).comp (isStableSort_sort h₂ hp)

/-- What is tied by the first ordering, the missing objects included, stands as the second one has
put it. -/
theorem sort_append_cities :
    let duck (name : String) (city : Value) : Value := .map [("name", .string name), ("city", city)]
    let p : List SortOrdering := [⟨.name "city", .ascendingFolded⟩]
    let s : List SortOrdering := [⟨.name "name", .descending⟩, ⟨.name "name", .other "byLength"⟩]
    let objects : List Value := [duck "Daisy" (.string "oz"), .missing, duck "Donald" .null,
      duck "Gladstone" (.string "Oz"), duck "Donald" (.string "Ev")]
    HaveOneKind (p ++ s) objects ∧ sort (p ++ s) objects = sort p (sort s objects) := by
  intro duck p s objects
  have hn (es) : (Key.name "name").valueIn (.map es) = (Entries.get? "name" es).getD .missing :=
    Key.valueIn_map (by decide) (by decide) es
  have hc (es) : (Key.name "city").valueIn (.map es) = (Entries.get? "city" es).getD .missing :=
    Key.valueIn_map (by decide) (by decide) es
  have h : HaveOneKind (p ++ s) objects := by
    simp only [HaveOneKind, p, s, List.cons_append, List.nil_append, List.forall_mem_cons]
    refine ⟨fun _ => ⟨"string", ?_⟩, fun _ => ⟨"string", ?_⟩, nofun, nofun⟩ <;>
      simp [objects, duck, hn, hc, Key.valueIn_missing, Entries.get?, Value.normalize,
        Constant.kind]
  exact ⟨h, sort_append h⟩

/-! ## Sorted lists -/

/-- `sorted` has the objects in another order, in which no object comes before an earlier one by the
orderings, and those that no ordering tells apart stand as they stood. -/
def IsSortedBy (os : List SortOrdering) (objects sorted : List Value) : Prop :=
  Arranged objects sorted fun i j =>
    ¬BeforeBy os objects[j] objects[i] ∧ (Ties os objects[i] objects[j] → i < j)

/-- The objects that are missing altogether may stand at the end: no object there comes before
them, and those that are not told apart from them stood before them. -/
def MissingComeLast (os : List SortOrdering) (objects : List Value) : Prop :=
  ∀ i j : Fin objects.length, isPresent objects[i] = true → isPresent objects[j] = false →
    ¬BeforeBy os objects[j] objects[i] ∧ (Ties os objects[i] objects[j] → i < j)

theorem missingComeLast_of_isPresent (h : ∀ v ∈ objects, isPresent v = true) :
    MissingComeLast os objects :=
  fun _ j _ hj => absurd (h _ (List.getElem_mem j.2)) (hj ▸ Bool.false_ne_true)

theorem precedes_compareBy {i j : Fin objects.length} (h : Precedes (compareBy os) objects i j) :
    ¬BeforeBy os objects[j] objects[i] ∧ (Ties os objects[i] objects[j] → i < j) := by
  rw [← compareBy_eq_lt_iff, ← compareBy_eq_eq_iff, compareBy_swap os objects[i]]
  rcases h with h | ⟨h₁, h₂⟩
  · rw [h]
    exact ⟨nofun, nofun⟩
  · rw [h₁]
    exact ⟨nofun, fun _ => h₂⟩

theorem isSortedBy_of_missingComeLast (h : HaveOneKind os objects) (hos : os ≠ [])
    (hm : MissingComeLast os objects) : IsSortedBy os objects (sort os objects) := by
  refine (isStableSort_sort h hos).mono fun i j hp => ?_
  by_cases hij : isPresent objects[i] = isPresent objects[j]
  · rw [Precedes, dividedBy_of_eq hij] at hp
    exact precedes_compareBy hp
  · cases hi : isPresent objects[i] <;> rw [hi] at hij
    case true => exact hm i j hi (Bool.eq_false_of_not_eq_true (Ne.symm hij))
    case false =>
      have hj : isPresent objects[j] = true := Bool.eq_true_of_not_eq_false (Ne.symm hij)
      rw [Precedes, dividedBy, hi, hj] at hp
      rcases hp with hp | ⟨hp, -⟩ <;> contradiction

theorem missingComeLast_of_isSortedBy (hos : os ≠ [])
    (h : IsSortedBy os objects (sort os objects)) : MissingComeLast os objects := by
  intro i j hi hj
  obtain ⟨places, hp, hm, hw⟩ := h
  rw [sort_of_ne_nil hos, List.map_eq_append_iff] at hm
  obtain ⟨front, back, rfl, hf, hb⟩ := hm
  have hall (k : Fin objects.length) : k ∈ front ∨ k ∈ back :=
    List.mem_append.1 (hp.mem_iff.2 (List.mem_finRange k))
  have hi' : i ∈ front := (hall i).resolve_right fun hb' => by
    have h₁ : objects[i] ∈ back.map objects.get := List.mem_map_of_mem hb'
    rw [hb, List.mem_filter, hi] at h₁
    exact absurd h₁.2 Bool.false_ne_true
  have hj' : j ∈ back := (hall j).resolve_left fun hf' => by
    have h₁ : objects[j] ∈ front.map objects.get := List.mem_map_of_mem hf'
    rw [hf, List.mem_mergeSort, List.mem_filter, hj] at h₁
    exact absurd h₁.2 Bool.false_ne_true
  exact (List.pairwise_append.1 hw).2.2 i hi' j hj'

/-- The sort is stable and goes by the orderings in turn, unless objects that are missing altogether
prevent it: these are put at the end, wherever the orderings want them. -/
theorem isSortedBy_sort_iff (h : HaveOneKind os objects) :
    (IsSortedBy os objects (sort os objects) ↔ os = [] ∨ MissingComeLast os objects) ∧
      (os ≠ [] → ∃ kept, IsSortedBy os (objects.filter isPresent) kept ∧
        sort os objects = kept ++ objects.filter fun v => !isPresent v) := by
  by_cases hos : os = []
  · subst hos
    refine ⟨⟨fun _ => .inl rfl, fun _ => ?_⟩, fun hn => absurd rfl hn⟩
    exact .self fun i j hij => ⟨nofun, fun _ => hij⟩
  · refine ⟨⟨fun hs => .inr (missingComeLast_of_isSortedBy hos hs), fun hm =>
      isSortedBy_of_missingComeLast h hos (hm.resolve_left hos)⟩, fun _ => ?_⟩
    have hp : ∀ v ∈ objects.filter isPresent, isPresent v = true :=
      fun v hv => (List.mem_filter.1 hv).2
    refine ⟨sort os (objects.filter isPresent), isSortedBy_of_missingComeLast ?_ hos ?_, ?_⟩
    · exact fun o ho hk => (h o ho hk).mono List.filter_sublist.subset
    · exact missingComeLast_of_isPresent hp
    · have hn : (objects.filter isPresent).filter (fun v => !isPresent v) = [] :=
        List.filter_eq_nil_iff.2 fun v hv => by simp [hp v hv]
      rw [sort_of_ne_nil hos, sort_of_ne_nil hos, hn, List.append_nil, List.filter_eq_self.2 hp]

/-- The sort is stable and goes by the orderings in turn, where no object is missing altogether. -/
theorem isSortedBy_sort (h : HaveOneKind os objects) (hp : ∀ v ∈ objects, v ≠ .missing) :
    IsSortedBy os objects (sort os objects) := by
  refine (isSortedBy_sort_iff h).1.2 (.inr (missingComeLast_of_isPresent fun v hv => ?_))
  have h₁ := hp v hv
  cases v <;> first | rfl | contradiction

/-- Two balances that differ in a sign only are told apart by the names, and an unknown ordering is
passed by. The last two objects are equal by all orderings. -/
theorem isSortedBy_sort_ducks :
    let duck (name : String) (balance : Value) : Value :=
      .map [("name", .string name), ("balance", balance)]
    let os : List SortOrdering := [⟨.name "balance", .descending⟩,
      ⟨.name "name", .descendingFolded⟩, ⟨.name "name", .other "byLength"⟩]
    let objects : List Value := [duck "Daisy" (.number (.finite (.zero true))),
      duck "donald" (.number (.finite (.zero false))), duck "scrooge" .null,
      duck "Scrooge" .missing]
    (HaveOneKind os objects ∧ ∀ v ∈ objects, v ≠ .missing) ∧
      IsSortedBy os objects (sort os objects) := by
  intro duck os objects
  have hn (es) : (Key.name "name").valueIn (.map es) = (Entries.get? "name" es).getD .missing :=
    Key.valueIn_map (by decide) (by decide) es
  have hb (es) :
      (Key.name "balance").valueIn (.map es) = (Entries.get? "balance" es).getD .missing :=
    Key.valueIn_map (by decide) (by decide) es
  have h₁ : HaveOneKind os objects := by
    simp only [HaveOneKind, os, List.forall_mem_cons]
    refine ⟨fun _ => ⟨"number", ?_⟩, fun _ => ⟨"string", ?_⟩, nofun, nofun⟩ <;>
      simp [objects, duck, hn, hb, Entries.get?, Value.normalize, Value.normalizeNumber,
        Constant.kind]
  have h₂ : ∀ v ∈ objects, v ≠ .missing := by simp [objects, duck]
  exact ⟨⟨h₁, h₂⟩, isSortedBy_sort h₁ h₂⟩

/-- An ascending ordering would have what is missing altogether first, but it comes last. -/
theorem not_isSortedBy_sort_missing :
    let o : SortOrdering := ⟨.name "n", .ascending⟩
    let zero : Value := .map [("n", .number (.finite (.zero false)))]
    let objects : List Value := [.missing, zero]
    HaveOneKind [o] objects ∧ sort [o] objects = [zero, .missing] ∧ o.Before .missing zero ∧
      ¬IsSortedBy [o] objects (sort [o] objects) := by
  intro o zero objects
  have hz : o.key.valueIn zero = .number (.finite (.zero false)) :=
    Key.valueIn_map (by decide) (by decide) _
  have hm : o.key.valueIn .missing = .missing := Key.valueIn_missing _
  have h₁ : HaveOneKind [o] objects := by
    simp [HaveOneKind, HasOneKind, objects, hz, hm, Value.normalize, Value.normalizeNumber,
      Constant.kind]
  have hv : o.sortValue zero = .number (.zero false) := by
    rw [sortValue, hz]
    rfl
  have hn : o.sortValue .missing = .null := by
    rw [sortValue, hm]
    rfl
  have h₂ : sort [o] objects = [zero, .missing] := by
    rw [sort_of_ne_nil (List.cons_ne_nil o [])]
    exact congrArg (· ++ [.missing]) (List.mergeSort_singleton zero)
  have h₃ : o.Before .missing zero := by
    refine ⟨rfl, ?_⟩
    rw [hv, hn]
    exact .null (by simp)
  refine ⟨h₁, h₂, h₃, fun h => ?_⟩
  have hl : MissingComeLast [o] objects :=
    missingComeLast_of_isSortedBy (List.cons_ne_nil o []) h
  exact (hl ⟨1, by decide⟩ ⟨0, by decide⟩ rfl rfl).1 (.here h₃)

end SortOrdering

end RecordQuery
