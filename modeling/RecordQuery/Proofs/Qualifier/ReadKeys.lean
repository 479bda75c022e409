import RecordQuery.Proofs.Qualifier.Evaluation
import RecordQuery.Qualifier.Names

/-!
# The keys that an evaluation reads

An evaluation looks at an object through the keys of the qualifier only, and at what it finds there
through its normal form. So two objects that have the same at these keys are not told apart:
neither the value nor an entry of the log differs.

* `Qualifier.evaluate?_congr`: one evaluation on two objects, by structural induction together with
  the parts of a compound.
-/

namespace RecordQuery

/-- Two objects have the same at every one of the given keys, as far as a comparison can see. -/
def AgreeAt (keys : List String) (o₁ o₂ : Value) : Prop :=
  ∀ k ∈ keys, (o₁.lookupText k).normalize = (o₂.lookupText k).normalize

namespace AgreeAt

variable {keys keys' : List String} {o₁ o₂ : Value}

theorem mono (h : AgreeAt keys o₁ o₂) (hs : ∀ k ∈ keys', k ∈ keys) : AgreeAt keys' o₁ o₂ :=
  fun k hk => h k (hs k hk)

theorem left (h : AgreeAt (keys ++ keys') o₁ o₂) : AgreeAt keys o₁ o₂ :=
  h.mono fun _ => List.mem_append_left keys'

theorem right (h : AgreeAt (keys ++ keys') o₁ o₂) : AgreeAt keys' o₁ o₂ :=
  h.mono fun _ => List.mem_append_right keys

theorem valueIn {k : Key} (h : AgreeAt keys o₁ o₂) (hk : k.text ∈ keys) :
    (k.valueIn o₁).normalize = (k.valueIn o₂).normalize :=
  h k.text hk

end AgreeAt

namespace Qualifier

variable {o₁ o₂ : Value}

mutual

/-- An evaluation does not tell objects apart that agree at the keys of the qualifier. -/
theorem evaluate?_congr : ∀ (q : Qualifier), AgreeAt q.keyOccurrences o₁ o₂ →
    q.evaluate? o₁ = q.evaluate? o₂
  | always _, _ => rfl
  | keyValue key op (.constant c), h => by
    rw [evaluate?, evaluate?, h.valueIn (k := key) (by simp [keyOccurrences])]
  | keyValue _ _ (.placeholder _), _ => rfl
  | keyComparison left op right, h => by
    rw [evaluate?, evaluate?, h.valueIn (k := left) (by simp [keyOccurrences]),
      h.valueIn (k := right) (by simp [keyOccurrences])]
  | not q, h => by
    rw [evaluate?, evaluate?, evaluate?_congr q h]
  | compound c parts, h => by
    rw [evaluate?, evaluate?, evaluateParts_congr c parts h]
  | sql _, _ => rfl

/-- A compound stops at the same part on both objects, so the parts that are not evaluated do not
matter either. -/
theorem evaluateParts_congr (c : Connective) : ∀ (qs : List Qualifier),
    AgreeAt (keyOccurrencesIn qs) o₁ o₂ → evaluateParts o₁ c qs = evaluateParts o₂ c qs
  | [], _ => rfl
  | q :: qs, h => by
    rw [evaluateParts, evaluateParts, evaluate?_congr q h.left, evaluateParts_congr c qs h.right]

end

theorem agreeAt_keyOccurrences {q : Qualifier} (h : AgreeAt q.referencedKeys o₁ o₂) :
    AgreeAt q.keyOccurrences o₁ o₂ :=
  h.mono fun _ => List.mem_eraseDups.2

/-- A qualifier that can be evaluated gives the same value on two objects, and logs the same
entries in the same order, if what the two have at the keys that it reads is the same. -/
theorem exists_evaluate?_of_agreeAt {q : Qualifier} (hq : q.isEvaluatable = true)
    (h : AgreeAt q.referencedKeys o₁ o₂) :
    ∃ r, q.evaluate? o₁ = some r ∧ q.evaluate? o₂ = some r := by
  obtain ⟨r, hr, -⟩ := Option.map_eq_some_iff.1 (value?_eq_some o₁ hq)
  exact ⟨r, hr, by rw [← evaluate?_congr q (agreeAt_keyOccurrences h), hr]⟩

/-- A set in the place of an array, a value that is missing in the place of null, and another value
at a key that is not read. -/
theorem exists_evaluate?_of_agreeAt_tags :
    let q : Qualifier := .compound .or
      [.not (.sql [.raw "1 = 1"]), .keyComparison (.name "tags") (.other "~") (.name "name"),
        .keyValue (.name "name") (.known .equalTo) (.constant .null)]
    let tags : List Value := [.string "x", .bool true]
    let o₁ : Value := .map [("tags", .array tags), ("name", .null), ("age", .string "3")]
    let o₂ : Value := .map [("age", .null), ("tags", .set tags)]
    (q.isEvaluatable = true ∧ AgreeAt q.referencedKeys o₁ o₂) ∧
      ∃ r, q.evaluate? o₁ = some r ∧ q.evaluate? o₂ = some r := by
  intro q tags o₁ o₂
  have h : AgreeAt q.referencedKeys o₁ o₂ := by
    intro k hk
    have hk : k = "tags" ∨ k = "name" := by
      simpa [q, keyOccurrences, keyOccurrencesIn, Key.text] using List.mem_eraseDups.1 hk
    obtain rfl | rfl := hk
    · rw [Value.lookupText_of_notMem "tags" (by decide) (by decide),
        Value.lookupText_of_notMem "tags" (by decide) (by decide)]
      rfl
    · rw [Value.lookupText_of_notMem "name" (by decide) (by decide),
        Value.lookupText_of_notMem "name" (by decide) (by decide)]
      rfl
  exact ⟨⟨rfl, h⟩, exists_evaluate?_of_agreeAt rfl h⟩

end Qualifier

end RecordQuery
