import RecordQuery.Proofs.Entries
import RecordQuery.Proofs.Fetch.BindPattern
import RecordQuery.Proofs.Fetch.RequiredBindings

/-!
# Hints that are filled in

Binding goes through the hints in the order of a listing. Each pattern is removed, and what it
stands for is stored under the name without the ending. If no pattern is that of a pattern, the
order does not matter: `filledHint` is what a hint is in the end, with one exception. What the
pattern of the name `Value.inheritanceName` stands for is lost, unless there is a hint of that name
to take it.

* `get?_foldl_resolveHint`: a hint while the patterns are filled in one after the other;
* `FetchSpecification.nodup_names_hint`: hints that are set one by one have distinct names;
* `FetchSpecification.bind_hints`: the hints of a bound specification, whatever their order was;
* `FetchSpecification.bind_lost_hint`: a pattern that gets lost.
-/

namespace RecordQuery

/-! ## Names of patterns -/

/-- The name of the pattern for a hint. -/
def patternName (name : String) : String :=
  name ++ "BindPattern"

theorem toList_patternName (name : String) :
    (patternName name).toList = name.toList ++ patternEnding :=
  String.toList_append

theorem patternName_inj {name other : String} :
    patternName name = patternName other ↔ name = other := by
  rw [← String.toList_inj, toList_patternName, toList_patternName, List.append_left_inj,
    String.toList_inj]

theorem patternName_ne (name : String) : patternName name ≠ name := by
  intro h
  have h₁ : patternEnding ≠ [] := by decide
  rw [← String.toList_inj, toList_patternName] at h
  exact h₁ (List.append_right_eq_self.1 h)

theorem patternTarget?_eq_some_iff {name target : String} :
    patternTarget? name = some target ↔ name = patternName target := by
  rw [← String.toList_inj, toList_patternName, patternTarget?]
  constructor
  · intro h
    split at h
    next h₁ =>
      obtain ⟨front, h₂⟩ := List.isSuffixOf_iff_suffix.1 h₁
      obtain rfl := Option.some.inj h
      simp [← h₂]
    next => contradiction
  · intro h
    rw [if_pos (List.isSuffixOf_iff_suffix.2 ⟨target.toList, h.symm⟩), h]
    simp

theorem patternTarget?_patternName (name : String) :
    patternTarget? (patternName name) = some name :=
  patternTarget?_eq_some_iff.2 rfl

theorem patternTarget?_ne_none_iff {name : String} :
    patternTarget? name ≠ none ↔ patternEnding <:+ name.toList := by
  rw [patternTarget?, ← List.isSuffixOf_iff_suffix]
  split
  next h => exact iff_of_true nofun h
  next h => exact iff_of_false (fun h₁ => h₁ rfl) h

/-- No hint is the pattern of a pattern. -/
def NoNestedPatterns (hints : Entries Value) : Prop :=
  ∀ name, patternName (patternName name) ∉ hints.names

theorem noNestedPatterns_iff {hints : Entries Value} :
    NoNestedPatterns hints ↔
      ∀ name ∈ hints.names, (patternTarget? name).bind patternTarget? = none := by
  constructor
  · intro h name hm
    rw [Option.eq_none_iff_forall_ne_some]
    intro target ht
    obtain ⟨pattern, h₁, h₂⟩ := Option.bind_eq_some_iff.1 ht
    rw [patternTarget?_eq_some_iff] at h₁ h₂
    rw [h₁, h₂] at hm
    exact h target hm
  · intro h target hm
    simpa [patternTarget?_patternName] using h _ hm

instance (hints : Entries Value) : Decidable (NoNestedPatterns hints) :=
  decidable_of_iff _ noNestedPatterns_iff.symm

/-! ## One pattern -/

section

variable (bindings : Value) (hints : Entries Value) (name other : String) (value : Value)

theorem get?_setHint :
    (setHint name value hints).get? other =
      if name = other then
        if name = Value.inheritanceName ∧ hints.get? name = none then none else some value
      else hints.get? other := by
  simp only [setHint, Option.isNone_iff_eq_none]
  by_cases h : name = Value.inheritanceName ∧ hints.get? name = none
  · rw [if_pos h, if_pos h]
    by_cases h₁ : name = other
    · rw [if_pos h₁, ← h₁, h.2]
    · rw [if_neg h₁]
  · rw [if_neg h, if_neg h, Entries.get?_set]

variable {hints} in
theorem nodup_names_setHint (h : hints.names.Nodup) : (setHint name value hints).names.Nodup := by
  unfold setHint
  split
  · exact h
  · exact Entries.nodup_names_set h name value

variable {hints} in
theorem nodup_names_resolveHint (h : hints.names.Nodup) (hint : String × Value) :
    (resolveHint bindings hints hint).names.Nodup := by
  unfold resolveHint
  split
  · exact nodup_names_setHint _ _ (Entries.nodup_names_erase h _)
  · exact h

/-- A pattern that is filled in is gone, and the hint that it is for has its text. -/
theorem get?_resolveHint_patternName :
    (resolveHint bindings hints (patternName name, value)).get? other =
      if other = patternName name then none
      else if name = other then
        if name = Value.inheritanceName ∧ hints.get? name = none then none
        else some (.string (formatPattern value.text bindings))
      else hints.get? other := by
  have h : patternName name ≠ name := patternName_ne name
  simp only [resolveHint, patternTarget?_patternName, get?_setHint, Entries.get?_erase, if_neg h]
  by_cases h₁ : other = patternName name
  · simp [h₁, h.symm]
  · simp [h₁, Ne.symm h₁]

theorem resolveHint_of_patternTarget?_eq_none (h : patternTarget? name = none) :
    resolveHint bindings hints (name, value) = hints := by
  rw [resolveHint, h]

end

/-! ## All patterns -/

/-- What a hint will be when the patterns in `todo` have been filled in. -/
def pendingHint (bindings : Value) (todo hints : Entries Value) (name : String) : Option Value :=
  match todo.get? (patternName name) with
  | some pattern =>
    if name = Value.inheritanceName ∧ hints.get? name = none then none
    else some (.string (formatPattern pattern.text bindings))
  | none => if patternTarget? name ≠ none ∧ name ∈ todo.names then none else hints.get? name

section

variable {todo : Entries Value} (bindings : Value) (hints : Entries Value) (name : String)

/-- A hint that is no pattern leaves all hints as they are. -/
theorem pendingHint_cons_of_patternTarget?_eq_none {m : String} (hm : patternTarget? m = none)
    (value : Value) :
    pendingHint bindings ((m, value) :: todo) hints name =
      pendingHint bindings todo (resolveHint bindings hints (m, value)) name := by
  have h₁ : m ≠ patternName name := by
    rintro rfl
    rw [patternTarget?_patternName] at hm
    contradiction
  have h₂ : patternTarget? name ≠ none → name ≠ m := by
    rintro h rfl
    exact h hm
  rw [resolveHint_of_patternTarget?_eq_none bindings hints m value hm]
  simp only [pendingHint, Entries.get?, if_neg h₁, Entries.names_cons, List.mem_cons]
  split
  · rfl
  · refine ite_congr (propext (and_congr_right fun h => ?_)) (fun _ => rfl) fun _ => rfl
    simp [h₂ h]

/-- Filling in a pattern changes the pattern and the hint that it is for, and no later pattern
touches either of them. -/
theorem pendingHint_cons_patternName {target : String} {pattern : Value}
    (hm : patternName target ∉ todo.names)
    (hn : NoNestedPatterns ((patternName target, pattern) :: todo)) :
    pendingHint bindings ((patternName target, pattern) :: todo) hints name =
      pendingHint bindings todo (resolveHint bindings hints (patternName target, pattern))
        name := by
  rcases eq_or_ne name target with rfl | h₁
  · -- the hint that the pattern is for, which is no pattern itself
    have h₂ : todo.get? (patternName name) = none := Entries.get?_eq_none_iff.2 hm
    have h₃ : patternTarget? name = none := by
      rw [Option.eq_none_iff_forall_ne_some]
      rintro other h
      rw [patternTarget?_eq_some_iff.1 h] at hn
      exact hn other List.mem_cons_self
    have h₄ : name ≠ patternName name := (patternName_ne name).symm
    simp [pendingHint, Entries.get?, h₂, h₃, get?_resolveHint_patternName, h₄]
  · have h₂ : (resolveHint bindings hints (patternName target, pattern)).get? name =
        if name = patternName target then none else hints.get? name := by
      rw [get?_resolveHint_patternName, if_neg h₁.symm]
    rcases eq_or_ne name (patternName target) with rfl | h₃
    · -- the pattern, for which there is no pattern
      have h₄ : todo.get? (patternName (patternName target)) = none :=
        Entries.get?_eq_none_iff.2 fun h => hn target (List.mem_cons_of_mem _ h)
      have h₅ : patternName target ≠ patternName (patternName target) :=
        (patternName_ne _).symm
      simp [pendingHint, Entries.get?, h₂, h₄, h₅, patternTarget?_patternName]
    · have h₄ : patternName target ≠ patternName name := fun h => h₁ (patternName_inj.1 h.symm)
      simp [pendingHint, Entries.get?, h₂, h₃, h₄]

/-- Filling in the first pattern does not change what a hint will be. -/
theorem pendingHint_cons {p : String × Value} (hd : (Entries.names (p :: todo)).Nodup)
    (hn : NoNestedPatterns (p :: todo)) :
    pendingHint bindings (p :: todo) hints name =
      pendingHint bindings todo (resolveHint bindings hints p) name := by
  obtain ⟨m, value⟩ := p
  obtain ⟨hm, -⟩ := List.nodup_cons.1 hd
  cases ht : patternTarget? m with
  | none => exact pendingHint_cons_of_patternTarget?_eq_none bindings hints name ht value
  | some target =>
    obtain rfl := patternTarget?_eq_some_iff.1 ht
    exact pendingHint_cons_patternName bindings hints name hm hn

end

/-- What a hint will be is what it is in the end. -/
theorem get?_foldl_resolveHint (bindings : Value) {todo : Entries Value} (hd : todo.names.Nodup)
    (hn : NoNestedPatterns todo) (hints : Entries Value) (name : String) :
    (todo.foldl (resolveHint bindings) hints).get? name = pendingHint bindings todo hints name := by
  induction todo generalizing hints with
  | nil => simp [pendingHint]
  | cons p todo ih =>
    have hn' : NoNestedPatterns todo := fun other h => hn other (List.mem_cons_of_mem _ h)
    rw [List.foldl_cons, ih (List.nodup_cons.1 hd).2 hn',
      pendingHint_cons bindings hints name hd hn]

theorem nodup_names_foldl_resolveHint (bindings : Value) (todo : Entries Value)
    {hints : Entries Value} (h : hints.names.Nodup) :
    (todo.foldl (resolveHint bindings) hints).names.Nodup := by
  induction todo generalizing hints with
  | nil => exact h
  | cons p todo ih => exact ih (nodup_names_resolveHint bindings h p)

/-! ## The hints in the end -/

/-- What a hint is in the end: its pattern filled in, if there is one, and else what it was, unless
it is a pattern itself. -/
def filledHint (bindings : Value) (hints : Entries Value) (name : String) : Option Value :=
  match hints.get? (patternName name) with
  | some pattern => some (.string (formatPattern pattern.text bindings))
  | none => if patternEnding <:+ name.toList then none else hints.get? name

/-- The pattern of a name has nowhere to go: a hint of this name is changed, but none is added. -/
def LosesPattern (hints : Entries Value) (name : String) : Prop :=
  name = Value.inheritanceName ∧ patternName name ∈ hints.names ∧ name ∉ hints.names

instance (hints : Entries Value) (name : String) : Decidable (LosesPattern hints name) :=
  inferInstanceAs (Decidable (_ ∧ _ ∧ _))

section

variable {hints : Entries Value} (hd : hints.names.Nodup) (hn : NoNestedPatterns hints)
  (bindings : Value) (name : String)

include hd in
theorem nodup_names_resolveHints : (resolveHints hints bindings).names.Nodup :=
  nodup_names_foldl_resolveHint bindings _ (Entries.nodup_names_enumerate hd)

include hd hn in
theorem get?_resolveHints :
    (resolveHints hints bindings).get? name = pendingHint bindings hints hints name := by
  have h₁ : ∀ other, other ∈ hints.enumerate.names ↔ other ∈ hints.names := fun other =>
    (hints.enumerate_perm.map Prod.fst).mem_iff
  have h₂ : NoNestedPatterns hints.enumerate := fun other h => hn other ((h₁ _).1 h)
  rw [resolveHints, get?_foldl_resolveHint bindings (Entries.nodup_names_enumerate hd) h₂]
  simp only [pendingHint, Entries.get?_enumerate hd, h₁]

include hd hn in
/-- A hint is what it is to be, unless its pattern has nowhere to go. -/
theorem get?_resolveHints_eq_iff :
    (resolveHints hints bindings).get? name = filledHint bindings hints name ↔
      ¬LosesPattern hints name := by
  have hl : LosesPattern hints name ↔
      name = Value.inheritanceName ∧ hints.get? (patternName name) ≠ none ∧
        hints.get? name = none := by
    rw [LosesPattern, Ne, Entries.get?_eq_none_iff, Entries.get?_eq_none_iff, not_not]
  rw [get?_resolveHints hd hn, hl, pendingHint, filledHint]
  cases hp : hints.get? (patternName name) with
  | some pattern => simp
  | none =>
    refine iff_of_true ?_ fun h => h.2.1 rfl
    simp only [patternTarget?_ne_none_iff]
    by_cases ht : patternEnding <:+ name.toList
    · by_cases hm : name ∈ hints.names
      · rw [if_pos ⟨ht, hm⟩, if_pos ht]
      · rw [if_neg fun h => hm h.2, if_pos ht]
        exact Entries.get?_eq_none_iff.2 hm
    · rw [if_neg fun h => ht h.1, if_neg ht]

end

namespace FetchSpecification

variable {s : FetchSpecification}

/-- Setting and removing a hint keeps the names of the hints distinct. -/
theorem nodup_names_hint (h : s.hints.names.Nodup) (name : String) (v : Value) :
    (s.hint name v).hints.names.Nodup := by
  unfold hint
  split
  · exact Entries.nodup_names_erase h name
  · exact nodup_names_setHint name _ h

/-- If no hint is the pattern of a pattern, binding fills the hints in alike, in whatever order they
were set, and does so whenever the condition can be bound: under each name there is what its pattern
stands for, or else the hint that was there, if it is no pattern, and nothing else. The exception is
a pattern that has nowhere to go. -/
theorem bind_hints (hd : s.hints.names.Nodup) (hn : NoNestedPatterns s.hints) (bindings : Value)
    {hints : Entries Value} (hp : hints.Perm s.hints) :
    ∃ filled : Entries Value, filled.names.Nodup ∧
      { s with hints := hints }.bind bindings =
        (Qualifier.bindOptional bindings s.requiresAllBindings s.qualifier).map
          (fun q => { s with qualifier := q, hints := filled }) ∧
      ∀ name, filled.get? name = filledHint bindings s.hints name ↔
        ¬LosesPattern s.hints name := by
  have hm : ∀ name, name ∈ hints.names ↔ name ∈ s.hints.names := fun name =>
    (hp.map Prod.fst).mem_iff
  have hd' : hints.names.Nodup := (hp.map Prod.fst).symm.nodup hd
  have hn' : NoNestedPatterns hints := fun name h => hn name ((hm _).1 h)
  refine ⟨resolveHints hints bindings, nodup_names_resolveHints hd' bindings, bind_eq _ _,
    fun name => ?_⟩
  have h₁ : filledHint bindings s.hints name = filledHint bindings hints name := by
    simp only [filledHint, Entries.get?_eq_of_perm hp hd']
  have h₂ : LosesPattern s.hints name ↔ LosesPattern hints name := by
    simp only [LosesPattern, hm]
  rw [h₁, h₂]
  exact get?_resolveHints_eq_iff hd' hn' bindings name

/-- A pattern, a hint that it overrides, and one that stays, in another order than they were set
in. -/
theorem bind_hints_depth :
    let s : FetchSpecification :=
      { hints := [("depth", .bool true), ("depthBindPattern", .string "%(n)s"), ("7", .null)] }
    let hints : Entries Value :=
      [("7", .null), ("depthBindPattern", .string "%(n)s"), ("depth", .bool true)]
    let bindings : Value := .map [("n", .string "5")]
    s.hints.names.Nodup ∧ NoNestedPatterns s.hints ∧ hints.Perm s.hints ∧
      ∃ filled : Entries Value, { s with hints := hints }.bind bindings =
          .ok { s with hints := filled } ∧
        filled.get? "depth" = some (.string "5") ∧ filled.get? "depthBindPattern" = none ∧
        filled.get? "7" = some .null := by
  intro s hints bindings
  have hd : s.hints.names.Nodup := by decide
  have hn : NoNestedPatterns s.hints := by decide
  have hp : hints.Perm s.hints := List.reverse_perm s.hints
  have ht : formatPattern "%(n)s" bindings = "5" := by
    have h : fillFields bindings "%(n)s".toList = "5".toList ++ fillFields bindings [] :=
      fillFields_field bindings (by decide : ')' ∉ ['n']) []
    rw [formatPattern, h, fillFields_nil]
    rfl
  obtain ⟨filled, -, h₁, h₂⟩ := bind_hints hd hn bindings hp
  refine ⟨hd, hn, hp, filled, h₁, ?_, ?_, ?_⟩
  · have h₃ : s.hints.get? (patternName "depth") = some (.string "%(n)s") := by
      simp [s, Entries.get?, patternName]
    rw [(h₂ "depth").2 (by decide), filledHint, h₃]
    exact congrArg (fun t => some (Value.string t)) ht
  · have h₃ : s.hints.get? (patternName "depthBindPattern") = none := by
      simp [s, Entries.get?, patternName]
    rw [(h₂ "depthBindPattern").2 (by decide), filledHint, h₃]
    exact if_pos (by decide)
  · have h₃ : s.hints.get? (patternName "7") = none := by
      simp [s, Entries.get?, patternName]
    rw [(h₂ "7").2 (by decide), filledHint, h₃]
    exact if_neg (by decide)

/-- A pattern for the name under which a record shows what it inherits is lost. -/
theorem bind_lost_hint :
    let s : FetchSpecification := { hints := [("__proto__BindPattern", .string "x")] }
    let bindings : Value := .map []
    s.hints.names.Nodup ∧ NoNestedPatterns s.hints ∧
      filledHint bindings s.hints "__proto__" = some (.string "x") ∧
      ∃ bound, s.bind bindings = .ok bound ∧ bound.hints.get? "__proto__" = none := by
  intro s bindings
  have ht : formatPattern "x" bindings = "x" := by
    have h : fillFields bindings "x".toList = 'x' :: fillFields bindings [] :=
      fillFields_cons_of_ne (by decide) bindings []
    rw [formatPattern, h, fillFields_nil]
  refine ⟨by decide, by decide, ?_, ?_⟩
  · have h₁ : s.hints.get? (patternName "__proto__") = some (.string "x") := by
      simp [s, Entries.get?, patternName]
    rw [filledHint, h₁]
    exact congrArg (fun t => some (Value.string t)) ht
  · have h₁ : Entries.index? "__proto__BindPattern" = none := by decide
    have h₂ : patternTarget? "__proto__BindPattern" = some "__proto__" :=
      patternTarget?_patternName "__proto__"
    have h₃ : resolveHints s.hints bindings = [] := by
      simp [resolveHints, resolveHint, setHint, s, Entries.enumerate, Entries.erase, h₁, h₂,
        Value.inheritanceName]
    refine ⟨{ hints := [] }, ?_, rfl⟩
    simp [bind, s, h₃]

end FetchSpecification

end RecordQuery
