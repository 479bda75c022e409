import RecordQuery.Qualifier.Binding
import RecordQuery.Qualifier.Names

/-!
# Binding is exact

An `Occurrence` is a place in a qualifier where a value is still to be bound. What binding does is
settled by the occurrences from left to right.

* `Qualifier.settles_bind?`: the first faulty occurrence is the failure, and if there is none, the
  qualifier stays as it is exactly if no occurrence has a value;
* `Qualifier.occurrences_bind?`: what is left to be bound are the occurrences without a value.
-/

namespace RecordQuery

theorem bindingValue?_eq_some_iff {bindings v : Value} {name : String} :
    bindingValue? bindings name = some v ↔ bindings.lookupText name = v ∧ v ≠ .missing := by
  unfold bindingValue?
  split
  · next h => simp [h]; rintro rfl; rfl
  · next h => simp; rintro rfl; exact h

/-! ## Occurrences -/

/-- A place where a value is still to be bound. Inside raw SQL the value needs a raw form. -/
structure Occurrence where
  name : String
  inSql : Bool

namespace Occurrence

variable (bindings : Value)

/-- There is no value under the name. -/
def isUnbound (o : Occurrence) : Bool :=
  (bindingValue? bindings o.name).isNone

/-- The value is one for raw SQL and has no raw form. Null needs none. -/
def isUnsupported (o : Occurrence) : Bool :=
  o.inSql &&
    match bindingValue? bindings o.name with
    | none => false
    | some .null => false
    | some v => (RawValue.ofValue? v).isNone

/-- Binding fails because of the occurrence. -/
def isFaulty (requiresAll : Bool) (o : Occurrence) : Bool :=
  requiresAll && o.isUnbound bindings || o.isUnsupported bindings

/-- The failure that a faulty occurrence is the reason for. -/
def failure (o : Occurrence) : Failure :=
  if o.isUnbound bindings then .bindingNotFound o.name none
  else .unsupportedRawValue o.name (bindings.lookupText o.name)

variable {bindings}

theorem isUnbound_of_isUnsupported {o : Occurrence} (h : o.isUnsupported bindings = true) :
    o.isUnbound bindings = false := by
  cases h₁ : bindingValue? bindings o.name with
  | none => simp [isUnsupported, h₁] at h
  | some v => simp [isUnbound, h₁]

end Occurrence

/-- The occurrence in a part of raw SQL, if there is one. -/
def SqlPart.occurrences : SqlPart → List Occurrence
  | placeholder name => [⟨name, true⟩]
  | _ => []

namespace Qualifier

mutual

/-- The occurrences in a qualifier, from left to right. -/
def occurrences : Qualifier → List Occurrence
  | always _ => []
  | keyValue _ _ (.placeholder name) => [⟨name, false⟩]
  | keyValue _ _ (.constant _) => []
  | keyComparison _ _ _ => []
  | not q => q.occurrences
  | compound _ parts => occurrencesIn parts
  | sql parts => parts.flatMap SqlPart.occurrences

/-- The occurrences of placeholders in the qualifiers of a list. -/
def occurrencesIn : List Qualifier → List Occurrence
  | [] => []
  | q :: qs => q.occurrences ++ occurrencesIn qs

end

end Qualifier

/-! ## Failure and change -/

section Settles

variable {α β : Type} {bindings : Value} {requiresAll : Bool}

/-- What became of a piece is settled by its occurrences: a failure is that of the first faulty one,
and without a faulty one the piece stays as it is exactly if no occurrence has a value. -/
def Settles (bindings : Value) (requiresAll : Bool) (os : List Occurrence) :
    Except Failure (Option α) → Prop
  | .error e =>
    (os.find? (·.isFaulty bindings requiresAll)).map (·.failure bindings) = some e
  | .ok r =>
    os.find? (·.isFaulty bindings requiresAll) = none ∧
      (r = none ↔ ∀ o ∈ os, o.isUnbound bindings = true)

theorem settles_none : Settles bindings requiresAll [] (.ok (none : Option α)) := by
  simp [Settles]

theorem Settles.eq_error_iff {os : List Occurrence} {x : Except Failure (Option α)}
    (h : Settles bindings requiresAll os x) (e : Failure) :
    x = .error e ↔
      ∃ o, os.find? (·.isFaulty bindings requiresAll) = some o ∧ o.failure bindings = e := by
  cases x with
  | error e' =>
    obtain ⟨o, h₁, h₂⟩ := Option.map_eq_some_iff.1 h
    rw [h₁, ← h₂]
    simp
  | ok r => simp [h.1]

theorem Settles.map {os : List Occurrence} {x : Except Failure (Option α)}
    (h : Settles bindings requiresAll os x) (f : α → β) :
    Settles bindings requiresAll os (x.map (Option.map f)) := by
  cases x with
  | error e => exact h
  | ok r => simpa [Settles, Except.map] using h

theorem Settles.consReplaced {os ps : List Occurrence} {x : Except Failure (Option α)}
    {y : Except Failure (Option (List α))} (hx : Settles bindings requiresAll os x)
    (hy : Settles bindings requiresAll ps y) (a : α) (as : List α) :
    Settles bindings requiresAll (os ++ ps) (consReplaced a as x y) := by
  cases x with
  | error e =>
    obtain ⟨o, h₁, h₂⟩ := Option.map_eq_some_iff.1 hx
    simp [Settles, RecordQuery.consReplaced, List.find?_append, h₁, h₂]
  | ok r =>
    obtain ⟨h₁, h₂⟩ := hx
    cases y with
    | error e =>
      obtain ⟨o, h₃, h₄⟩ := Option.map_eq_some_iff.1 hy
      simp [Settles, RecordQuery.consReplaced, List.find?_append, h₁, h₃, h₄]
    | ok s =>
      obtain ⟨h₃, h₄⟩ := hy
      refine ⟨by simp [List.find?_append, h₁, h₃], ?_⟩
      rw [List.forall_mem_append, ← h₂, ← h₄]
      cases r <;> cases s <;> simp

theorem settles_replaceEach? {replace? : α → Except Failure (Option α)} {os : α → List Occurrence}
    (h : ∀ a, Settles bindings requiresAll (os a) (replace? a)) (as : List α) :
    Settles bindings requiresAll (as.flatMap os) (replaceEach? replace? as) := by
  induction as with
  | nil => exact settles_none
  | cons a as ih => exact (h a).consReplaced ih a as

/-! ### Single occurrences -/

variable {o : Occurrence}

theorem settles_unboundName (h : bindingValue? bindings o.name = none) :
    Settles bindings requiresAll [o]
      (unboundName requiresAll o.name : Except Failure (Option α)) := by
  cases requiresAll <;>
    simp [unboundName, Settles, Occurrence.isFaulty, Occurrence.isUnbound, Occurrence.isUnsupported,
      Occurrence.failure, h]

theorem settles_replaced {v : Value} (h₁ : bindingValue? bindings o.name = some v)
    (h₂ : o.isUnsupported bindings = false) (a : α) :
    Settles bindings requiresAll [o] (.ok (some a)) := by
  simp [Settles, Occurrence.isFaulty, Occurrence.isUnbound, h₁, h₂]

theorem settles_unsupported {v : Value} (h₁ : bindingValue? bindings o.name = some v)
    (h₂ : o.isUnsupported bindings = true) :
    Settles bindings requiresAll [o]
      (.error (.unsupportedRawValue o.name v) : Except Failure (Option α)) := by
  have h₃ := (bindingValue?_eq_some_iff.1 h₁).1
  simp [Settles, Occurrence.isFaulty, Occurrence.failure, Occurrence.isUnbound, h₁, h₂, h₃]

end Settles

section Binding

variable (bindings : Value) (requiresAll : Bool)

theorem SqlPart.settles_bind? (p : SqlPart) :
    Settles bindings requiresAll p.occurrences (p.bind? bindings requiresAll) := by
  cases p with
  | raw sql => exact settles_none
  | value v => exact settles_none
  | placeholder name =>
    rw [SqlPart.bind?, SqlPart.occurrences]
    split
    · next h => exact settles_unboundName (o := ⟨name, true⟩) h
    · next h =>
      exact settles_replaced (o := ⟨name, true⟩) h (by simp [Occurrence.isUnsupported, h]) _
    · next v h₁ h =>
      split
      · next h₂ =>
        exact settles_replaced (o := ⟨name, true⟩) h (by simp [Occurrence.isUnsupported, h, h₂]) _
      · next h₂ =>
        exact settles_unsupported (o := ⟨name, true⟩) h (by simp [Occurrence.isUnsupported, h, h₂])

namespace Qualifier

mutual

theorem settles_bind? : ∀ q : Qualifier,
    Settles bindings requiresAll q.occurrences (q.bind? bindings requiresAll)
  | always _ => settles_none
  | keyValue key op (.placeholder name) => by
    rw [bind?, occurrences]
    split
    · next h => exact settles_unboundName (o := ⟨name, false⟩) h
    · next h => exact settles_replaced (o := ⟨name, false⟩) h rfl _
  | keyValue _ _ (.constant _) => settles_none
  | keyComparison _ _ _ => settles_none
  | not q => by
    rw [bind?, occurrences]
    exact (settles_bind? q).map _
  | compound c parts => by
    rw [bind?, occurrences]
    exact (settles_bindEach? parts).map _
  | sql parts => by
    rw [bind?, occurrences]
    exact (settles_replaceEach? (SqlPart.settles_bind? bindings requiresAll) parts).map _

theorem settles_bindEach? : ∀ qs : List Qualifier,
    Settles bindings requiresAll (occurrencesIn qs) (bindEach? bindings requiresAll qs)
  | [] => settles_none
  | q :: qs => by
    rw [bindEach?, occurrencesIn]
    exact (settles_bind? q).consReplaced (settles_bindEach? qs) q qs

end

end Qualifier

end Binding

/-! ## What is left to be bound -/

section Left

variable {α β : Type} {bindings : Value} {requiresAll : Bool}

theorem consReplaced_eq_ok {a : α} {as : List α} {x : Except Failure (Option α)}
    {y : Except Failure (Option (List α))} {r : Option (List α)}
    (h : consReplaced a as x y = .ok r) :
    ∃ b bs, x = .ok b ∧ y = .ok bs ∧ r.getD (a :: as) = b.getD a :: bs.getD as := by
  cases x with
  | error e => contradiction
  | ok b =>
    cases y with
    | error e => contradiction
    | ok bs =>
      obtain rfl := Except.ok.inj h
      refine ⟨b, bs, rfl, rfl, ?_⟩
      cases b <;> cases bs <;> rfl

theorem exists_of_map_eq_ok {x : Except Failure α} {f : α → β} {b : β} (h : x.map f = .ok b) :
    ∃ a, x = .ok a ∧ f a = b := by
  cases x with
  | error e => contradiction
  | ok a => exact ⟨a, rfl, Except.ok.inj h⟩

/-- No value that occurrences are bound to is a placeholder itself. -/
def BindsNoPlaceholder (bindings : Value) (os : List Occurrence) : Prop :=
  ∀ o ∈ os, ∀ name, bindings.lookupText o.name ≠ .placeholder name

/-- If replacing leaves the occurrences without a value of each element, it leaves those of a
list. -/
theorem flatMap_replaceEach? {replace? : α → Except Failure (Option α)} {os : α → List Occurrence}
    {p : Occurrence → Bool}
    (h : ∀ a b, replace? a = .ok b → os (b.getD a) = (os a).filter p) {as : List α}
    {bs : Option (List α)} (hb : replaceEach? replace? as = .ok bs) :
    (bs.getD as).flatMap os = (as.flatMap os).filter p := by
  induction as generalizing bs with
  | nil =>
    obtain rfl := Except.ok.inj hb
    rfl
  | cons a as ih =>
    obtain ⟨b, cs, h₁, h₂, h₃⟩ := consReplaced_eq_ok hb
    rw [h₃, List.flatMap_cons, List.flatMap_cons, List.filter_append, h a b h₁, ih h₂]

theorem eq_none_of_unboundName {name : String} {r : Option α}
    (h : unboundName requiresAll name = .ok r) : r = none := by
  cases requiresAll with
  | true => contradiction
  | false => exact (Except.ok.inj h).symm

theorem Operand.ofValue_eq_constant {v : Value} (h : ∀ name, v ≠ .placeholder name) :
    ofValue v = constant v.normalize := by
  unfold ofValue
  split
  · next name => exact absurd rfl (h name)
  · rfl

theorem SqlPart.occurrences_bind? {p : SqlPart} {r : Option SqlPart}
    (h : p.bind? bindings requiresAll = .ok r) :
    (r.getD p).occurrences = p.occurrences.filter (·.isUnbound bindings) := by
  cases p with
  | raw sql =>
    obtain rfl := Except.ok.inj h
    rfl
  | value v =>
    obtain rfl := Except.ok.inj h
    rfl
  | placeholder name =>
    rw [SqlPart.bind?] at h
    split at h
    · next h₁ =>
      obtain rfl := eq_none_of_unboundName h
      simp [occurrences, Occurrence.isUnbound, h₁]
    · next h₁ =>
      obtain rfl := Except.ok.inj h
      simp [occurrences, Occurrence.isUnbound, h₁]
    · next h₁ =>
      split at h
      · obtain rfl := Except.ok.inj h
        simp [occurrences, Occurrence.isUnbound, h₁]
      · contradiction

namespace Qualifier

theorem occurrences_negate (q : Qualifier) : q.negate.occurrences = q.occurrences := by
  cases q <;> rfl

theorem occurrences_keyValue_ofValue (key : Key) (op : Operation) {v : Value}
    (h : ∀ name, v ≠ .placeholder name) : (keyValue key op (.ofValue v)).occurrences = [] := by
  rw [Operand.ofValue_eq_constant h]
  rfl

mutual

/-- After binding, the occurrences without a value are left. -/
theorem occurrences_bind? : ∀ {q : Qualifier} {r : Option Qualifier},
    q.bind? bindings requiresAll = .ok r → BindsNoPlaceholder bindings q.occurrences →
      (r.getD q).occurrences = q.occurrences.filter (·.isUnbound bindings)
  | always _, r, h, _ => by
    obtain rfl := Except.ok.inj h
    rfl
  | keyValue key op (.placeholder name), r, h, hp => by
    rw [bind?] at h
    split at h
    · next h₁ =>
      obtain rfl := eq_none_of_unboundName h
      simp [occurrences, Occurrence.isUnbound, h₁]
    · next v h₁ =>
      obtain rfl := Except.ok.inj h
      have h₂ : ∀ n, v ≠ .placeholder n := by
        rw [← (bindingValue?_eq_some_iff.1 h₁).1]
        exact hp ⟨name, false⟩ (by simp [occurrences])
      rw [Option.getD_some, occurrences_keyValue_ofValue key op h₂]
      simp [occurrences, Occurrence.isUnbound, h₁]
  | keyValue _ _ (.constant _), r, h, _ => by
    obtain rfl := Except.ok.inj h
    rfl
  | keyComparison _ _ _, r, h, _ => by
    obtain rfl := Except.ok.inj h
    rfl
  | not q, r, h, hp => by
    obtain ⟨s, h₁, rfl⟩ := exists_of_map_eq_ok h
    have h₂ := occurrences_bind? h₁ hp
    cases s with
    | none => exact h₂
    | some p => exact (occurrences_negate p).trans h₂
  | compound c parts, r, h, hp => by
    obtain ⟨s, h₁, rfl⟩ := exists_of_map_eq_ok h
    have h₂ := occurrencesIn_bindEach? h₁ hp
    cases s <;> exact h₂
  | sql parts, r, h, _ => by
    obtain ⟨s, h₁, rfl⟩ := exists_of_map_eq_ok h
    have h₂ := flatMap_replaceEach? (fun p r => SqlPart.occurrences_bind?) h₁
    cases s <;> exact h₂

theorem occurrencesIn_bindEach? : ∀ {qs : List Qualifier} {rs : Option (List Qualifier)},
    bindEach? bindings requiresAll qs = .ok rs → BindsNoPlaceholder bindings (occurrencesIn qs) →
      occurrencesIn (rs.getD qs) = (occurrencesIn qs).filter (·.isUnbound bindings)
  | [], rs, h, _ => by
    obtain rfl := Except.ok.inj h
    rfl
  | q :: qs, rs, h, hp => by
    obtain ⟨hp₁, hp₂⟩ := List.forall_mem_append.1 hp
    obtain ⟨s, ss, h₁, h₂, h₃⟩ := consReplaced_eq_ok h
    rw [h₃, occurrencesIn, occurrencesIn, List.filter_append, occurrences_bind? h₁ hp₁,
      occurrencesIn_bindEach? h₂ hp₂]

end

end Qualifier

end Left

/-! ## The names that are left -/

theorem eraseDups_filter {α : Type} [BEq α] [LawfulBEq α] (p : α → Bool) (as : List α) :
    (as.filter p).eraseDups = as.eraseDups.filter p := by
  match as with
  | [] => rfl
  | a :: as =>
    rw [List.eraseDups_cons, List.filter_cons, List.filter_cons,
      ← eraseDups_filter p (as.filter fun b => !b == a)]
    cases ha : p a with
    | true => simp [List.eraseDups_cons, List.filter_filter, Bool.and_comm]
    | false =>
      -- What has the property differs from what has not.
      have h₁ : (as.filter fun b => !b == a).filter p = as.filter p := by
        rw [List.filter_filter]
        refine List.filter_congr fun b _ => ?_
        cases hb : p b with
        | false => rfl
        | true =>
          have h₂ : b ≠ a := by
            rintro rfl
            rw [ha] at hb
            contradiction
          simpa using h₂
      simp [h₁]
termination_by as.length
decreasing_by exact Nat.lt_succ_of_le (List.length_filter_le _ _)

namespace Qualifier

mutual

theorem map_name_occurrences : ∀ q : Qualifier, q.occurrences.map (·.name) = q.bindingOccurrences
  | always _ => rfl
  | keyValue _ _ (.placeholder _) => rfl
  | keyValue _ _ (.constant _) => rfl
  | keyComparison _ _ _ => rfl
  | not q => map_name_occurrences q
  | compound _ parts => map_name_occurrencesIn parts
  | sql parts => by
    rw [occurrences, bindingOccurrences]
    induction parts with
    | nil => rfl
    | cons p parts ih =>
      cases p <;> simp [SqlPart.occurrences, List.filterMap_cons, SqlPart.name?, ih]

theorem map_name_occurrencesIn : ∀ qs : List Qualifier,
    (occurrencesIn qs).map (·.name) = bindingOccurrencesIn qs
  | [] => rfl
  | q :: qs => by
    rw [occurrencesIn, bindingOccurrencesIn, List.map_append, map_name_occurrences q,
      map_name_occurrencesIn qs]

end

mutual

theorem hasUnresolvedBindings_eq : ∀ q : Qualifier,
    q.hasUnresolvedBindings = !q.bindingOccurrences.isEmpty
  | always _ => rfl
  | keyValue _ _ (.placeholder _) => rfl
  | keyValue _ _ (.constant _) => rfl
  | keyComparison _ _ _ => rfl
  | not q => hasUnresolvedBindings_eq q
  | compound _ parts => anyUnresolved_eq parts
  | sql parts => by
    rw [hasUnresolvedBindings, bindingOccurrences]
    induction parts with
    | nil => rfl
    | cons p parts ih =>
      cases p <;> simp [List.filterMap_cons, SqlPart.name?] <;> exact ih

theorem anyUnresolved_eq : ∀ qs : List Qualifier,
    anyUnresolved qs = !(bindingOccurrencesIn qs).isEmpty
  | [] => rfl
  | q :: qs => by
    rw [anyUnresolved, bindingOccurrencesIn, hasUnresolvedBindings_eq q, anyUnresolved_eq qs,
      ← Bool.not_and]
    cases q.bindingOccurrences <;> rfl

end

variable {q : Qualifier} {bindings : Value} {requiresAll : Bool} {r : Option Qualifier}

/-- After binding, the names without a value are left, in their order. -/
theorem bindingKeys_bind? (h : q.bind? bindings requiresAll = .ok r)
    (hp : BindsNoPlaceholder bindings q.occurrences) :
    (r.getD q).bindingKeys =
      q.bindingKeys.filter fun name => (bindingValue? bindings name).isNone := by
  rw [bindingKeys, bindingKeys, ← eraseDups_filter, ← map_name_occurrences,
    ← map_name_occurrences, occurrences_bind? h hp, List.filter_map]
  rfl

/-- If all values are required, nothing is left to be bound. -/
theorem hasUnresolvedBindings_bind? (h : q.bind? bindings true = .ok r)
    (hp : BindsNoPlaceholder bindings q.occurrences) :
    (r.getD q).hasUnresolvedBindings = false := by
  have h₁ := settles_bind? bindings true q
  rw [h] at h₁
  have h₂ : q.occurrences.filter (·.isUnbound bindings) = [] := by
    refine List.filter_eq_nil_iff.2 fun o ho hu => ?_
    exact List.find?_eq_none.1 h₁.1 o ho (by simp [Occurrence.isFaulty, hu])
  rw [hasUnresolvedBindings_eq, ← map_name_occurrences, occurrences_bind? h hp, h₂]
  rfl

/-! ## The whole of binding -/

theorem bind_eq_error_iff (q : Qualifier) (bindings : Value) (requiresAll : Bool) (e : Failure) :
    q.bind bindings requiresAll = .error e ↔
      ∃ o, q.occurrences.find? (·.isFaulty bindings requiresAll) = some o ∧
        o.failure bindings = e := by
  rw [← (settles_bind? bindings requiresAll q).eq_error_iff, bind]
  cases q.bind? bindings requiresAll <;> simp [Except.map]

end Qualifier

end RecordQuery
