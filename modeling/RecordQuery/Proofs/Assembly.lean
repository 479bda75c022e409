import RecordQuery.Builder
import RecordQuery.Proofs.Qualifier.NormalForm

/-!
# Assembling qualifiers

An `Assembly` holds the qualifiers and builders that were made so far. A step makes one more, from a
truth value, a comparison or raw SQL, or from what is there.

* `Assembly.AllNormal.make`: a step keeps the normal form of all that is there;
* `Assembly.isNormal_ofSteps`: so everything that any steps make is in normal form.
-/

namespace RecordQuery

/-- What was made so far, the latest first. Joining or negating no qualifiers gives none. -/
structure Assembly where
  qualifiers : List (Option Qualifier) := []
  builders : List Builder := []

namespace Assembly

/-- Something to be made. What is there is named by how long ago it was made, and can be used any
number of times. -/
inductive Step where
  | always (value : Bool)
  | leaf (q : Qualifier) (isLeaf : q.isLeaf = true)
  /-- Joins two qualifiers. -/
  | join (c : Connective) (left right : Nat)
  /-- Negates a qualifier. -/
  | negate (i : Nat)
  /-- Starts a builder with a qualifier. -/
  | start (i : Nat)
  /-- Adds the comparison of a key with a value to a builder. -/
  | compare (i : Nat) (j : Builder.Junction) (key : String) (r : Relation) (v : Value)
  /-- Adds the comparison of two keys to a builder. -/
  | compareKeys (i : Nat) (j : Builder.Junction) (key : String) (op : Operation) (other : String)
  /-- Negates what a builder holds. -/
  | invert (i : Nat)
  /-- Takes the qualifier out of a builder. -/
  | finish (i : Nat)

/-- A qualifier that is there, none where nothing was made. -/
def qualifier (s : Assembly) (i : Nat) : Option Qualifier :=
  s.qualifiers.getD i none

/-- A builder that is there, the empty one where none was made. -/
def builder (s : Assembly) (i : Nat) : Builder :=
  s.builders.getD i {}

/-- Has one more qualifier, or one more place without one. -/
def addQualifier (s : Assembly) (q : Option Qualifier) : Assembly :=
  { s with qualifiers := q :: s.qualifiers }

/-- Has one more builder. -/
def addBuilder (s : Assembly) (b : Builder) : Assembly :=
  { s with builders := b :: s.builders }

/-- Takes a step. -/
def make (s : Assembly) : Step → Assembly
  | .always value => s.addQualifier (some (.always value))
  | .leaf q _ => s.addQualifier (some q)
  | .join c left right =>
    s.addQualifier (Qualifier.joinOptional c (s.qualifier left) (s.qualifier right))
  | .negate i => s.addQualifier ((s.qualifier i).map Qualifier.negate)
  | .start i => s.addBuilder ⟨s.qualifier i⟩
  | .compare i j key r v => s.addBuilder ((s.builder i).compare j key r v)
  | .compareKeys i j key op other => s.addBuilder ((s.builder i).compareKeys j key op other)
  | .invert i => s.addBuilder (s.builder i).negate
  | .finish i => s.addQualifier (s.builder i).qualifier

/-- What steps make, one after the other. -/
def ofSteps (steps : List Step) : Assembly :=
  steps.foldl make {}

end Assembly

open Qualifier

theorem Qualifier.isNormal_joinOptional {left right : Option Qualifier} (c : Connective)
    (hl : ∀ q ∈ left, q.IsNormal) (hr : ∀ q ∈ right, q.IsNormal) :
    ∀ q ∈ joinOptional c left right, q.IsNormal := by
  cases left with
  | none => exact hr
  | some p =>
    cases right with
    | none => exact hl
    | some r =>
      rintro q ⟨⟩
      exact (hl p rfl).join (hr r rfl) c

theorem Qualifier.isNormal_map_negate {q : Option Qualifier} (h : ∀ p ∈ q, p.IsNormal) :
    ∀ p ∈ q.map Qualifier.negate, p.IsNormal := by
  intro p hp
  obtain ⟨r, hr, rfl⟩ := Option.map_eq_some_iff.1 hp
  exact (h r hr).negate

theorem Builder.isNormal_add {b : Builder} (h : ∀ q ∈ b.qualifier, q.IsNormal) (j : Junction)
    {q : Qualifier} (hq : q.IsNormal) : ∀ p ∈ (b.add j q).qualifier, p.IsNormal := by
  unfold add
  split
  · next c old hb =>
    rintro p ⟨⟩
    exact (h old hb).join hq c
  · rintro p ⟨⟩
    exact hq

namespace Assembly

/-- All that was made is in normal form. -/
structure AllNormal (s : Assembly) : Prop where
  qualifiers : ∀ o ∈ s.qualifiers, ∀ q ∈ o, q.IsNormal
  builders : ∀ b ∈ s.builders, ∀ q ∈ b.qualifier, q.IsNormal

theorem forall_getD {α : Type} {P : α → Prop} {as : List α} {a : α} (h : ∀ b ∈ as, P b) (ha : P a)
    (i : Nat) : P (as.getD i a) := by
  rw [List.getD_eq_getElem?_getD]
  cases hb : as[i]? with
  | none => exact ha
  | some b => exact h b (List.mem_of_getElem? hb)

namespace AllNormal

variable {s : Assembly}

theorem qualifier (h : s.AllNormal) (i : Nat) : ∀ q ∈ s.qualifier i, q.IsNormal :=
  forall_getD h.qualifiers (by simp) i

theorem builder (h : s.AllNormal) (i : Nat) : ∀ q ∈ (s.builder i).qualifier, q.IsNormal :=
  forall_getD h.builders (by simp) i

theorem addQualifier (h : s.AllNormal) {o : Option Qualifier} (ho : ∀ q ∈ o, q.IsNormal) :
    (s.addQualifier o).AllNormal :=
  ⟨List.forall_mem_cons.2 ⟨ho, h.qualifiers⟩, h.builders⟩

theorem addBuilder (h : s.AllNormal) {b : Builder} (hb : ∀ q ∈ b.qualifier, q.IsNormal) :
    (s.addBuilder b).AllNormal :=
  ⟨h.qualifiers, List.forall_mem_cons.2 ⟨hb, h.builders⟩⟩

/-- A step keeps the normal form. -/
theorem make (h : s.AllNormal) (step : Step) : (s.make step).AllNormal := by
  cases step with
  | always value =>
    apply h.addQualifier
    rintro q ⟨⟩
    exact isNormal_always value
  | leaf q hq =>
    apply h.addQualifier
    rintro p ⟨⟩
    exact isNormal_of_isLeaf hq
  | join c left right =>
    exact h.addQualifier (isNormal_joinOptional c (h.qualifier left) (h.qualifier right))
  | negate i => exact h.addQualifier (isNormal_map_negate (h.qualifier i))
  | start i => exact h.addBuilder (h.qualifier i)
  | compare i j key r v =>
    exact h.addBuilder (Builder.isNormal_add (h.builder i) j (isNormal_of_isLeaf rfl))
  | compareKeys i j key op other =>
    exact h.addBuilder (Builder.isNormal_add (h.builder i) j (isNormal_of_isLeaf rfl))
  | invert i => exact h.addBuilder (isNormal_map_negate (h.builder i))
  | finish i => exact h.addQualifier (h.builder i)

theorem foldl_make (h : s.AllNormal) (steps : List Step) :
    (steps.foldl Assembly.make s).AllNormal := by
  induction steps generalizing s with
  | nil => exact h
  | cons step steps ih => exact ih (h.make step)

end AllNormal

/-- Every qualifier that steps make is in normal form, and so is every one that a builder holds. -/
theorem isNormal_ofSteps (steps : List Step) :
    (∀ q, some q ∈ (ofSteps steps).qualifiers → q.IsNormal) ∧
      ∀ b ∈ (ofSteps steps).builders, ∀ q, b.qualifier = some q → q.IsNormal := by
  have h₁ : ({} : Assembly).AllNormal := ⟨by simp, by simp⟩
  have h₂ : (ofSteps steps).AllNormal := h₁.foldl_make steps
  exact ⟨fun q hq => h₂.qualifiers _ hq q rfl, h₂.builders⟩

/-- A disjunction is joined with one of its own parts, negated twice, joined with a truth value and
handed to a builder. -/
theorem isNormal_ofSteps_shared :
    let city : Qualifier := .keyValue (.name "city") (.known .equalTo) (.constant (.string "Oz"))
    let sql : Qualifier := .sql [.raw "1 = 1"]
    let steps : List Step :=
      [.leaf city rfl, .leaf sql rfl, .join .or 1 0, .join .or 0 2, .negate 0, .negate 0,
        .always true, .join .and 0 1, .start 0, .compareKeys 0 (.join .and) "a" (.known .like) "b",
        .invert 0]
    let q : Qualifier := .compound .or [city, sql, city]
    let p : Qualifier :=
      .not (.compound .and [q, .keyComparison (.ofText "a") (.known .like) (.ofText "b")])
    (some q ∈ (ofSteps steps).qualifiers ∧ q.IsNormal) ∧
      ⟨some p⟩ ∈ (ofSteps steps).builders ∧ p.IsNormal := by
  intro city sql steps q p
  have h := isNormal_ofSteps steps
  have hq : some q ∈ (ofSteps steps).qualifiers := List.mem_cons_self
  have hp : ⟨some p⟩ ∈ (ofSteps steps).builders := List.mem_cons_self
  exact ⟨⟨hq, h.1 q hq⟩, hp, h.2 _ hp p rfl⟩

end Assembly

end RecordQuery
