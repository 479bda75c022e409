import RecordQuery.Fetch.ListSource
import RecordQuery.Proofs.Qualifier.UncheckedSql
import RecordQuery.Proofs.Sorting

/-!
# What a fetch gives

Once both conditions are bound, a fetch keeps the objects that satisfy their conjunction, sorts them
and cuts out a part (`ListSource.fetchWhere`). Sorting and cutting add nothing, so what matters is
that neither condition is lost when they are joined, nor when the join cannot be evaluated.

* `ListSource.fetch_eq_ok_iff`, `ListSource.fetch_eq_error_iff`: all that a fetch can come to;
* `ListSource.fetch_satisfies_auxiliary`: what is fetched satisfies the auxiliary condition.
-/

namespace RecordQuery

theorem sliceList_subset {α : Type} (as : List α) (start stop : Number) :
    sliceList as start stop ⊆ as :=
  List.Subset.trans (List.take_subset _ _) (List.drop_subset _ _)

theorem Number.place_ofInt_zero (length : Nat) : (ofInt 0).place length = 0 := by
  have h : ofInt 0 = .finite (.zero false) := by decide +kernel
  rw [h]
  simp [place, Double.zero, Double.truncate]

theorem sliceList_whole {α : Type} (as : List α) :
    sliceList as (.ofInt 0) (.infinite false) = as := by
  have h : (Number.infinite false).place as.length = as.length := rfl
  simp [sliceList, Number.place_ofInt_zero, h]

namespace Qualifier

/-- A conjunction that cannot be evaluated is one with raw SQL on the left and nothing but truth on
the right, if what is on the right can be evaluated. -/
theorem isEvaluatable_conjoin_eq_false {q p : Qualifier} (hp : p.isEvaluatable = true)
    (h : (q.conjoin p).isEvaluatable = false) : q.isEvaluatable = false ∧ p = always true := by
  rw [conjoin] at h
  rcases join_cases .and q p with ⟨b, rfl, h₁⟩ | ⟨b, rfl, h₁⟩ | ⟨-, -, h₁⟩
  · rw [h₁] at h
    split at h
    · rw [hp] at h
      contradiction
    · contradiction
  · rw [h₁] at h
    split at h
    · next hb => exact ⟨h, congrArg always hb⟩
    · contradiction
  · rw [h₁] at h
    contradiction

end Qualifier

namespace ListSource

theorem page_subset (spec : FetchSpecification) (objects : List Value) :
    page spec objects ⊆ objects := by
  unfold page
  split <;> exact sliceList_subset _ _ _

variable {s : ListSource}

/-! ## All that a fetch can come to -/

/-- The objects that a bound specification asks for under a condition. -/
def fetchWhere (s : ListSource) (spec : FetchSpecification) (condition : Option Qualifier) :
    Logged (List Value) :=
  (s.keep condition).map fun objects => page spec (SortOrdering.sort spec.orderings objects)

theorem fetch_eq_ok_iff {r : Logged (List Value)} :
    s.fetch = .ok r ↔ ∃ spec auxiliary, s.boundSpecification = .ok spec ∧
      s.boundAuxiliary spec.requiresAllBindings = .ok auxiliary ∧
      s.fetchWhere spec (Qualifier.both spec.qualifier auxiliary) = r := by
  rw [fetch]
  cases s.boundSpecification with
  | error e => simp
  | ok spec => cases h : s.boundAuxiliary spec.requiresAllBindings <;> simp [h, fetchWhere]

theorem fetch_eq_error_iff {e : Failure} :
    s.fetch = .error e ↔ s.boundSpecification = .error e ∨
      ∃ spec, s.boundSpecification = .ok spec ∧
        s.boundAuxiliary spec.requiresAllBindings = .error e := by
  rw [fetch]
  cases s.boundSpecification with
  | error e => simp
  | ok spec => cases h : s.boundAuxiliary spec.requiresAllBindings <;> simp [h]

theorem value_keep {q : Qualifier} (h : q.isEvaluatable = true) :
    (s.keep (some q)).value = s.objects.filter (q.holds ·) := by
  rw [keep, if_pos h, q.value_select h]

theorem value_keep_subset (condition : Option Qualifier) :
    (s.keep condition).value ⊆ s.objects := by
  cases condition with
  | none => exact List.Subset.refl _
  | some q =>
    cases h : q.isEvaluatable with
    | true => exact value_keep h ▸ List.filter_sublist.subset
    | false => simp [keep, h]

theorem fetchWhere_subset (spec : FetchSpecification) (condition : Option Qualifier) :
    (s.fetchWhere spec condition).value ⊆ (s.keep condition).value :=
  fun _ hv => SortOrdering.mem_sort.1 (page_subset _ _ hv)

/-! ## The auxiliary condition -/

/-- Unless the one condition is raw SQL and the other one always true, the objects are kept for
which both hold. -/
theorem value_keep_both {condition : Option Qualifier} {q : Qualifier}
    (hq : q.isEvaluatable = true)
    (h : ∀ p, condition = some p → p.isEvaluatable = true ∨ q ≠ .always true) :
    (s.keep (Qualifier.both condition (some q))).value =
      s.objects.filter fun v => condition.all (·.holds v) && q.holds v := by
  cases condition with
  | none => simpa [Qualifier.both, Qualifier.joinOptional] using value_keep hq
  | some p =>
    have h₁ : (p.conjoin q).isEvaluatable = true := by
      refine Bool.of_not_eq_false fun hn => ?_
      obtain ⟨h₂, h₃⟩ := Qualifier.isEvaluatable_conjoin_eq_false hq hn
      rcases h p rfl with h₄ | h₄
      · rw [h₂] at h₄
        contradiction
      · exact h₄ h₃
    calc (s.keep (some (p.conjoin q))).value
      _ = s.objects.filter ((p.conjoin q).holds ·) := value_keep h₁
      _ = _ := List.filter_congr fun v _ => p.holds_conjoin v q

/-- What is kept under a condition and an auxiliary one satisfies the latter. -/
theorem holds_of_mem_keep_both {condition : Option Qualifier} {q : Qualifier}
    (hq : q.isEvaluatable = true) {v : Value}
    (hv : v ∈ (s.keep (Qualifier.both condition (some q))).value) : q.holds v = true := by
  by_cases h : q = .always true
  · -- It may be that nothing is filtered at all, but then nothing is asked for either.
    rw [h]
    rfl
  · rw [value_keep_both hq fun p _ => .inr h, List.mem_filter, Bool.and_eq_true] at hv
    exact hv.2.2

/-- What is fetched satisfies the auxiliary condition, unless this is raw SQL itself, whatever the
condition of the specification is. All that satisfies both conditions is there, sorted and cut to
the part that is asked for, unless the one is raw SQL itself and the other one always true. -/
theorem fetch_satisfies_auxiliary {r : Logged (List Value)} (h : s.fetch = .ok r) :
    ∃ spec auxiliary, s.boundSpecification = .ok spec ∧
      s.boundAuxiliary spec.requiresAllBindings = .ok auxiliary ∧
      ∀ q, auxiliary = some q → q.isEvaluatable = true →
        (∀ v ∈ r.value, v ∈ s.objects ∧ q.value? v = some true) ∧
        ((∀ p, spec.qualifier = some p → p.isEvaluatable = true ∨ q ≠ .always true) →
          r.value = page spec (SortOrdering.sort spec.orderings
            (s.objects.filter fun v => spec.qualifier.all (·.holds v) && q.holds v))) := by
  obtain ⟨spec, auxiliary, h₁, h₂, rfl⟩ := fetch_eq_ok_iff.1 h
  refine ⟨spec, auxiliary, h₁, h₂, ?_⟩
  rintro q rfl hq
  constructor
  · intro v hv
    have hk := fetchWhere_subset _ _ hv
    refine ⟨value_keep_subset _ hk, ?_⟩
    rw [q.value?_eq_some v hq, holds_of_mem_keep_both hq hk]
  · intro hp
    rw [fetchWhere, Logged.value_map, value_keep_both hq hp]

/-- A condition that lets everything through, as its raw SQL is not checked, does not let the
auxiliary condition be forgotten. -/
theorem fetch_satisfies_auxiliary_city :
    let city (name : String) : Value := .map [("city", .string name)]
    let unchecked : Qualifier := .not (.compound .or [.sql [.raw "banned = 1"]])
    let bindings : Value := .map [("home", .string "Oz")]
    let s : ListSource :=
      { objects := [city "Oz", city "Ev"]
        specification := some { qualifier := some unchecked }
        auxiliary := some (.keyValue (.name "city") (.known .equalTo) (.placeholder "home"))
        bindings := some bindings }
    (∀ v ∈ s.objects, unchecked.value? v = some true) ∧
      ∃ r, s.fetch = .ok r ∧ r.value = [city "Oz"] := by
  intro city unchecked bindings s
  let q : Qualifier := .keyValue (.name "city") (.known .equalTo) (.constant (.string "Oz"))
  have hu (v : Value) : unchecked.value? v = some true :=
    Qualifier.value?_not_compound_sql .or _ _
  have hq (name : String) : q.holds (city name) = (name == "Oz") := by
    have h : q.value? (city name) = some (name == "Oz") :=
      Qualifier.value?_equalTo_text (by decide) (by decide) name "Oz"
    rw [Qualifier.holds, h, Option.getD_some]
  have h₁ : s.boundSpecification = .ok { qualifier := some unchecked } := rfl
  have h₂ : s.boundAuxiliary false = .ok (some q) := by
    have h := bindings.lookupText_of_notMem "home" (by decide) (by decide)
    simp [s, q, boundAuxiliary, Qualifier.bind, Qualifier.bind?, bindingValue?, h, bindings,
      Value.lookup, Entries.get?, Except.map, Operand.ofValue, Value.normalize]
  obtain ⟨r, hr⟩ : ∃ r, s.fetch = .ok r := ⟨_, fetch_eq_ok_iff.2 ⟨_, _, h₁, h₂, rfl⟩⟩
  obtain ⟨spec, auxiliary, h₃, h₄, h₅⟩ := fetch_satisfies_auxiliary hr
  obtain rfl := Except.ok.inj (h₁.symm.trans h₃)
  obtain rfl := Except.ok.inj (h₂.symm.trans h₄)
  refine ⟨fun v _ => hu v, r, hr, ((h₅ q rfl rfl).2 fun p hp => .inl ?_).trans ?_⟩
  · obtain rfl := Option.some.inj hp
    rfl
  · have h₆ (v : Value) : unchecked.holds v = true := by rw [Qualifier.holds, hu, Option.getD_some]
    simp [s, hq, h₆, page, sliceList_whole, SortOrdering.sort]

end ListSource

end RecordQuery
