import RecordQuery.Proofs.Fetch.ListSource
import RecordQuery.Proofs.Qualifier.BoundReading

/-!
# Values that a fetch requires

A specification can require a value for every placeholder, in its own condition and in the auxiliary
one. With values to bind from, a name without one stops the fetch, and what is evaluated has no
placeholder left. Without any values the conditions are evaluated as they are, and nothing is
required: a comparison with a placeholder is false, and its negation lets everything through.

* `ListSource.fetch_requires_bindings`: what is required, and when;
* `ListSource.fetch_unbound_age`: a fetch that requires a value and goes on without it.
-/

namespace RecordQuery

namespace Qualifier

variable {bindings : Value}

/-! ## Conditions that may be absent -/

/-- A condition with its placeholders replaced, if there is one. -/
def bindOptional (bindings : Value) (requiresAll : Bool) :
    Option Qualifier → Except Failure (Option Qualifier)
  | none => .ok none
  | some q => (q.bind bindings requiresAll).map some

/-- The names of the placeholders in a condition, if there is one. -/
def optionalNames (condition : Option Qualifier) : List String :=
  condition.elim [] bindingOccurrences

/-- The first name without a value. -/
def firstMissing? (bindings : Value) (names : List String) : Option String :=
  names.find? fun name => (bindingValue? bindings name).isNone

/-- Outside raw SQL only a missing value stops the binding, the first one if there are several. -/
theorem bind_eq_error_iff_of_isSqlFree {q : Qualifier} (hq : q.isSqlFree = true) {e : Failure} :
    q.bind bindings true = .error e ↔
      ∃ name, firstMissing? bindings q.bindingOccurrences = some name ∧
        .bindingNotFound name none = e := by
  have h₁ : q.occurrences.find? (·.isFaulty bindings true) =
      q.occurrences.find? (·.isUnbound bindings) := by
    rw [← List.head?_filter, ← List.head?_filter]
    refine congrArg List.head? (List.filter_congr fun o ho => ?_)
    simp [Occurrence.isFaulty, Occurrence.isUnsupported, inSql_of_isSqlFree hq o ho]
  have h₂ : firstMissing? bindings q.bindingOccurrences =
      (q.occurrences.find? (·.isUnbound bindings)).map (·.name) := by
    rw [firstMissing?, ← map_name_occurrences, List.find?_map]
    rfl
  rw [bind_eq_error_iff, h₁, h₂]
  cases h : q.occurrences.find? (·.isUnbound bindings) with
  | none => simp
  | some o =>
    have hu : o.isUnbound bindings = true := List.find?_some h
    simp [Occurrence.failure, hu]

theorem bindOptional_eq_error_iff {condition : Option Qualifier}
    (hq : ∀ q, condition = some q → q.isSqlFree = true) {e : Failure} :
    bindOptional bindings true condition = .error e ↔
      ∃ name, firstMissing? bindings (optionalNames condition) = some name ∧
        .bindingNotFound name none = e := by
  cases condition with
  | none => simp [bindOptional, optionalNames, firstMissing?]
  | some q =>
    rw [optionalNames, Option.elim_some, ← bind_eq_error_iff_of_isSqlFree (hq q rfl), bindOptional]
    cases q.bind bindings true <;> simp [Except.map]

theorem exists_bindOptional_iff {condition : Option Qualifier}
    (hq : ∀ q, condition = some q → q.isSqlFree = true) :
    (∃ bound, bindOptional bindings true condition = .ok bound) ↔
      firstMissing? bindings (optionalNames condition) = none := by
  have h (e : Failure) : bindOptional bindings true condition = .error e ↔ _ :=
    bindOptional_eq_error_iff hq
  cases hb : bindOptional bindings true condition with
  | ok bound =>
    refine ⟨fun _ => Option.eq_none_iff_forall_ne_some.2 fun name hn => ?_, fun _ => ⟨bound, rfl⟩⟩
    exact absurd (hb.symm.trans ((h _).2 ⟨name, hn, rfl⟩)) nofun
  | error e =>
    obtain ⟨name, hn, -⟩ := (h e).1 hb
    simp [hn]

/-! ## Nothing is left to be bound -/

theorem hasUnresolvedBindings_eq_false_iff {q : Qualifier} :
    q.hasUnresolvedBindings = false ↔ ∀ l ∈ q.leaves, l.occurrences = [] := by
  rw [hasUnresolvedBindings_eq, ← map_name_occurrences, ← flatMap_occurrences_leaves]
  simp

theorem hasUnresolvedBindings_join (c : Connective) {q p : Qualifier}
    (hq : q.hasUnresolvedBindings = false) (hp : p.hasUnresolvedBindings = false) :
    (q.join c p).hasUnresolvedBindings = false := by
  have h : ∀ l ∈ q.leaves ++ p.leaves, l.occurrences = [] :=
    List.forall_mem_append.2 ⟨hasUnresolvedBindings_eq_false_iff.1 hq,
      hasUnresolvedBindings_eq_false_iff.1 hp⟩
  exact hasUnresolvedBindings_eq_false_iff.2 fun l hl => h l (leaves_join_subset c q p hl)

theorem hasUnresolvedBindings_both {left right : Option Qualifier}
    (hl : ∀ q, left = some q → q.hasUnresolvedBindings = false)
    (hr : ∀ q, right = some q → q.hasUnresolvedBindings = false) :
    ∀ q, both left right = some q → q.hasUnresolvedBindings = false := by
  rintro q h
  cases left with
  | none => exact hr q h
  | some l =>
    obtain rfl := Option.some.inj h
    cases right with
    | none => exact hl l rfl
    | some r => exact hasUnresolvedBindings_join .and (hl l rfl) (hr r rfl)

theorem hasUnresolvedBindings_bindOptional {condition bound : Option Qualifier}
    (h : bindOptional bindings true condition = .ok bound)
    (hp : ∀ name ∈ optionalNames condition, ∀ n, bindings.lookupText name ≠ .placeholder n) :
    ∀ q, bound = some q → q.hasUnresolvedBindings = false := by
  rintro q rfl
  cases condition with
  | none => exact absurd (Except.ok.inj h) nofun
  | some p =>
    obtain ⟨p', h₁, h₂⟩ := exists_of_map_eq_ok h
    obtain rfl := Option.some.inj h₂
    obtain ⟨r, h₃, rfl⟩ := exists_of_map_eq_ok h₁
    refine hasUnresolvedBindings_bind? h₃ fun o ho => hp o.name ?_
    rw [optionalNames, Option.elim_some, ← map_name_occurrences]
    exact List.mem_map_of_mem ho

end Qualifier

/-- A specification is bound by binding its condition and filling in its hints. -/
theorem FetchSpecification.bind_eq (spec : FetchSpecification) (bindings : Value) :
    spec.bind bindings =
      (Qualifier.bindOptional bindings spec.requiresAllBindings spec.qualifier).map fun q =>
        { spec with qualifier := q, hints := resolveHints spec.hints bindings } := by
  obtain ⟨entity, qualifier⟩ := spec
  cases qualifier with
  | none => rfl
  | some q =>
    simp only [bind, Qualifier.bindOptional]
    cases q.bind bindings _ <;> rfl

namespace ListSource

open Qualifier (bindOptional optionalNames firstMissing?)

variable {s : ListSource} {spec : FetchSpecification} {b : Value}

/-! ## Binding before a fetch -/

/-- The names of the placeholders in the conditions of a fetch. -/
def names (s : ListSource) : List String :=
  optionalNames (s.specification.bind (·.qualifier)) ++ optionalNames s.auxiliary

theorem boundSpecification_eq (hs : s.specification = some spec) (hb : s.bindings = some b) :
    s.boundSpecification =
      (bindOptional b spec.requiresAllBindings spec.qualifier).map fun q =>
        { spec with qualifier := q, hints := resolveHints spec.hints b } := by
  rw [boundSpecification, hs, hb]
  exact spec.bind_eq b

theorem boundAuxiliary_eq (hb : s.bindings = some b) (requiresAll : Bool) :
    s.boundAuxiliary requiresAll = bindOptional b requiresAll s.auxiliary := by
  rw [boundAuxiliary, hb]
  cases s.auxiliary <;> rfl

/-! ## What is required -/

theorem fetch_eq_error_iff_bindOptional (hs : s.specification = some spec)
    (hr : spec.requiresAllBindings = true) (hb : s.bindings = some b) {e : Failure} :
    s.fetch = .error e ↔ bindOptional b true spec.qualifier = .error e ∨
      (∃ q, bindOptional b true spec.qualifier = .ok q) ∧
        bindOptional b true s.auxiliary = .error e := by
  rw [fetch_eq_error_iff, boundSpecification_eq hs hb, hr]
  cases bindOptional b true spec.qualifier <;> simp [Except.map, boundAuxiliary_eq hb]

/-- With values to bind from, a fetch that requires all of them fails exactly if a name has none,
and the first such name is the reason. -/
theorem fetch_eq_error_iff_of_requires (hs : s.specification = some spec)
    (hr : spec.requiresAllBindings = true) (hb : s.bindings = some b)
    (hq : ∀ q, spec.qualifier = some q → q.isSqlFree = true)
    (ha : ∀ q, s.auxiliary = some q → q.isSqlFree = true) {e : Failure} :
    s.fetch = .error e ↔
      ∃ name, firstMissing? b s.names = some name ∧ .bindingNotFound name none = e := by
  have hn : firstMissing? b s.names = (firstMissing? b (optionalNames spec.qualifier)).or
      (firstMissing? b (optionalNames s.auxiliary)) := by
    rw [names, hs, firstMissing?, List.find?_append]
    rfl
  rw [fetch_eq_error_iff_bindOptional hs hr hb, Qualifier.bindOptional_eq_error_iff hq,
    Qualifier.exists_bindOptional_iff hq, Qualifier.bindOptional_eq_error_iff ha, hn]
  cases firstMissing? b (optionalNames spec.qualifier) <;> simp

/-- Nothing is left to be bound in the condition that is evaluated if all values were required and
none is a placeholder itself. -/
theorem hasUnresolvedBindings_of_requires (hs : s.specification = some spec)
    (hr : spec.requiresAllBindings = true) (hb : s.bindings = some b)
    (hp : ∀ name ∈ s.names, ∀ n, b.lookupText name ≠ .placeholder n)
    {spec' : FetchSpecification} {auxiliary : Option Qualifier}
    (h₁ : s.boundSpecification = .ok spec')
    (h₂ : s.boundAuxiliary spec'.requiresAllBindings = .ok auxiliary) :
    ∀ q, Qualifier.both spec'.qualifier auxiliary = some q → q.hasUnresolvedBindings = false := by
  rw [names, hs, List.forall_mem_append] at hp
  rw [boundSpecification_eq hs hb, hr] at h₁
  obtain ⟨q, h₃, rfl⟩ := exists_of_map_eq_ok h₁
  rw [boundAuxiliary_eq hb] at h₂
  exact Qualifier.hasUnresolvedBindings_both
    (Qualifier.hasUnresolvedBindings_bindOptional h₃ hp.1)
    (Qualifier.hasUnresolvedBindings_bindOptional h₂ hp.2)

/-- Without any values nothing is bound, and nothing required. -/
theorem fetch_of_bindings_eq_none (hs : s.specification = some spec) (hb : s.bindings = none) :
    s.fetch = .ok (s.fetchWhere spec (Qualifier.both spec.qualifier s.auxiliary)) := by
  refine fetch_eq_ok_iff.2 ⟨spec, s.auxiliary, ?_, ?_, rfl⟩
  · rw [boundSpecification, hs, hb]
  · rw [boundAuxiliary, hb]
    cases s.auxiliary <;> rfl

/-- Let a fetch require all values, in conditions without raw SQL. If there are values to bind from,
it fails exactly if a placeholder has none, for the first such one from left to right, the auxiliary
condition last; and if no value is a placeholder itself, what is evaluated has none left. If there
is nothing to bind from, it does not fail and evaluates the conditions as they are. -/
theorem fetch_requires_bindings (hs : s.specification = some spec)
    (hr : spec.requiresAllBindings = true)
    (hq : ∀ q, spec.qualifier = some q → q.isSqlFree = true)
    (ha : ∀ q, s.auxiliary = some q → q.isSqlFree = true) :
    (∀ b, s.bindings = some b →
      (∀ e, s.fetch = .error e ↔
        ∃ name, s.names.find? (fun name => (bindingValue? b name).isNone) = some name ∧
          .bindingNotFound name none = e) ∧
      ((∀ name ∈ s.names, ∀ n, b.lookupText name ≠ .placeholder n) →
        ∀ spec' auxiliary, s.boundSpecification = .ok spec' →
          s.boundAuxiliary spec'.requiresAllBindings = .ok auxiliary →
            ∀ q, Qualifier.both spec'.qualifier auxiliary = some q →
              q.hasUnresolvedBindings = false)) ∧
    (s.bindings = none →
      s.fetch = .ok (s.fetchWhere spec (Qualifier.both spec.qualifier s.auxiliary))) :=
  ⟨fun _ hb => ⟨fun _ => fetch_eq_error_iff_of_requires hs hr hb hq ha,
    fun hp _ _ => hasUnresolvedBindings_of_requires hs hr hb hp⟩, fetch_of_bindings_eq_none hs⟩

/-- The auxiliary condition counts as well, and null is something to bind from. -/
theorem fetch_requires_bindings_age :
    let s : ListSource :=
      { objects := [.map [("age", .number (.ofInt 35))]]
        specification := some { requiresAllBindings := true }
        auxiliary :=
          some (.not (.keyValue (.name "age") (.known .lessThan) (.placeholder "maxAge")))
        bindings := some .null }
    s.fetch = .error (.bindingNotFound "maxAge" none) := by
  intro s
  have h : bindingValue? .null "maxAge" = none := by
    rw [bindingValue?, Value.lookupText_of_notMem "maxAge" (by decide) (by decide)]
    rfl
  refine (((fetch_requires_bindings (s := s) rfl rfl ?_ ?_).1 .null rfl).1 _).2
    ⟨"maxAge", ?_, rfl⟩
  · intro q hq
    cases hq
  · intro q hq
    obtain rfl := Option.some.inj hq
    rfl
  · simp [s, names, optionalNames, Qualifier.bindingOccurrences, Operand.name?, h]

/-- All values are required and one is missing, but the object is fetched. -/
theorem fetch_unbound_age :
    let q : Qualifier :=
      .not (.keyValue (.name "age") (.known .lessThan) (.placeholder "maxAge"))
    let s : ListSource :=
      { objects := [.map [("age", .number (.ofInt 35))]]
        specification := some { requiresAllBindings := true }
        auxiliary := some q }
    q.bindingKeys = ["maxAge"] ∧ s.bindings = none ∧
      ∃ r, s.fetch = .ok r ∧ r.value = s.objects := by
  intro q s
  refine ⟨by simp [q, Qualifier.bindingKeys, Qualifier.bindingOccurrences, Operand.name?,
    List.eraseDups_cons], rfl, _, fetch_of_bindings_eq_none rfl rfl, ?_⟩
  have h : (s.keep (some q)).value = s.objects := by
    rw [value_keep rfl, List.filter_eq_self]
    exact fun _ _ => rfl
  simpa [s, fetchWhere, page, sliceList_whole, SortOrdering.sort, Qualifier.both,
    Qualifier.joinOptional] using h

end ListSource

end RecordQuery
