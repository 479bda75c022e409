import RecordQuery.Proofs.Meaning

/-!
# Inequality with an argument

A pattern such as `%@` or `%d` compares a key with an argument, and each pattern has its own way of
reading it. The constant that comes of it is the same under every relation
(`exists_argumentComparison`), so that `!=` holds where `=` does not. The exception is an argument
that is absent: every pattern but `%@` makes the test for null of it, and drops the relation, so
that `!=` holds exactly where `=` does. These patterns ask the argument for its text, and fail where
it has none. `exists_parse_notEqualTo` states all of it.
-/

namespace RecordQuery

open Format

/-- The letters after a percent sign that compare a key with an argument rather than with the key
that the argument names. -/
def valueSpecifiers : List Char :=
  ['@', 's', 'i', 'd', 'f']

/-- The pattern with a specifier. -/
def patternText (specifier : Char) : String :=
  .ofList ['%', specifier]

/-- The argument is absent, and the pattern makes the test for null of it, whatever the relation. -/
def dropsRelation (specifier : Char) (v : Value) : Bool :=
  specifier != '@' && v.isAbsent

/-- The relation of a comparison with a pattern. -/
def patternRelation (specifier : Char) (v : Value) (r : Relation) : Relation :=
  if dropsRelation specifier v then .equalTo else r

namespace Format

variable {specifier : Char} {v : Value}

/-- A step before which a pattern asked an argument for its text. -/
def Step.askingFor {α : Type} (specifier : Char) (v : Value) (s : Step α) : Step α :=
  if specifier = '@' then s else s.asking v

theorem Step.askingFor_of_readable {α : Type} (h : specifier = '@' ∨ v.text? ≠ none)
    (s : Step α) : s.askingFor specifier v = s := by
  unfold askingFor
  split
  · rfl
  · next h₁ =>
    exact asking_of_isSome (Option.isSome_iff_ne_none.2 (h.resolve_left h₁)) s

theorem exists_wholeNumber (v : Value) : ∃ d, Operand.ofValue (wholeNumber v) = .constant d := by
  unfold wholeNumber
  split
  · split <;> exact ⟨_, rfl⟩
  · cases readSafeInteger? v.text.toList <;> exact ⟨_, rfl⟩

theorem exists_anyNumber (v : Value) : ∃ d, Operand.ofValue (anyNumber v) = .constant d := by
  unfold anyNumber
  split
  · exact ⟨_, rfl⟩
  · cases Decimal.read? v.text.toList <;> exact ⟨_, rfl⟩

/-- A pattern that makes the test for null of an absent argument, and else keeps the relation. -/
theorem exists_compareArgument (hs : specifier ≠ '@') (read : Value → Value)
    (h : ∃ d, Operand.ofValue (read v) = .constant d) :
    ∃ d, ∀ key r, compareArgument read key (.known r) v =
      .keyValue (.ofText key) (.known (patternRelation specifier v r)) (.constant d) := by
  have h₁ : dropsRelation specifier v = v.isAbsent := by simp [dropsRelation, hs]
  cases hv : v.isAbsent with
  | true =>
    refine ⟨.null, fun key r => ?_⟩
    simp [compareArgument, patternRelation, h₁, hv, Qualifier.ofKeyText, Operand.ofValue,
      Value.normalize]
  | false =>
    obtain ⟨d, hd⟩ := h
    refine ⟨d, fun key r => ?_⟩
    simp [compareArgument, patternRelation, h₁, hv, Qualifier.ofKeyText, hd]

/-- A pattern and an argument make one constant, whatever the key and the relation are. Every
pattern but `%@` asks the argument for its text. -/
theorem exists_argumentComparison (hs : specifier ∈ valueSpecifiers)
    (hv : ∀ name, v ≠ .placeholder name) :
    ∃ d, ∀ key r c, argumentComparison key (.known r) specifier v c =
      (Step.ok (.keyValue (.ofText key) (.known (patternRelation specifier v r)) (.constant d))
        c).askingFor specifier v := by
  have h₁ : ∃ d, Operand.ofValue (.string v.text) = .constant d := ⟨_, rfl⟩
  simp only [valueSpecifiers, List.mem_cons, List.not_mem_nil, or_false] at hs
  rcases hs with rfl | rfl | rfl | rfl | rfl
  · refine ⟨v.normalize, fun key r c => ?_⟩
    have h₂ : Operand.ofValue v = .constant v.normalize := by
      cases v with
      | placeholder name => exact absurd rfl (hv name)
      | _ => rfl
    simp [argumentComparison, patternRelation, dropsRelation, Qualifier.ofKeyText, h₂,
      Step.askingFor]
  · obtain ⟨d, hd⟩ :=
      exists_compareArgument (by decide : 's' ≠ '@') (fun v => .string v.text) h₁
    exact ⟨d, fun key r c => by simp [argumentComparison, hd, Step.askingFor]⟩
  · obtain ⟨d, hd⟩ :=
      exists_compareArgument (by decide : 'i' ≠ '@') wholeNumber (exists_wholeNumber v)
    exact ⟨d, fun key r c => by simp [argumentComparison, hd, Step.askingFor]⟩
  · obtain ⟨d, hd⟩ :=
      exists_compareArgument (by decide : 'd' ≠ '@') wholeNumber (exists_wholeNumber v)
    exact ⟨d, fun key r c => by simp [argumentComparison, hd, Step.askingFor]⟩
  · obtain ⟨d, hd⟩ :=
      exists_compareArgument (by decide : 'f' ≠ '@') anyNumber (exists_anyNumber v)
    exact ⟨d, fun key r c => by simp [argumentComparison, hd, Step.askingFor]⟩

/-- A comparison with a pattern is parsed if the argument has a text or is not asked for it, and
nothing is logged. -/
theorem exists_parse?_pattern {key : String} (hk : LeftName key) (hs : specifier ∈ valueSpecifiers)
    (hv : ∀ name, v ≠ .placeholder name) (ht : specifier = '@' ∨ v.text? ≠ none) :
    ∃ d, ∀ r, Qualifier.parse? (comparison key r (patternText specifier)) [v] =
      .ok ⟨some (.keyValue (.ofText key) (.known (patternRelation specifier v r)) (.constant d)),
        []⟩ := by
  obtain ⟨d, hd⟩ := exists_argumentComparison hs hv
  refine ⟨d, fun r => (hk.readsRow_comparison r fun size word rest args hw hr => ?_).parse?⟩
  have h := hd key r ⟨rest, args⟩
  rw [Step.askingFor_of_readable ht] at h
  rw [← h, ← hw, ← afterOperation_pattern args size key word specifier v]
  simp [patternText]

/-- An argument without a text is a failure for every pattern that asks for it. -/
theorem parse?_pattern_textless {key : String} (hk : LeftName key)
    (hs : specifier ∈ valueSpecifiers) (hv : ∀ name, v ≠ .placeholder name)
    (h₁ : specifier ≠ '@') (h₂ : v.text? = none) (r : Relation) :
    Qualifier.parse? (comparison key r (patternText specifier)) [v] = .error .symbolInText := by
  obtain ⟨d, hd⟩ := exists_argumentComparison hs hv
  obtain ⟨word, f, hw, hf⟩ := hk.exists_read_comparison r (patternText specifier) [v]
  have h₃ : (read (comparison key r (patternText specifier)).toList [v]).textless = true := by
    rw [hf, patternText, String.toList_ofList, afterOperation_pattern, hw, hd]
    exact Step.textless_bind (by simp [Step.askingFor, h₁, Step.asking, h₂]) f
  rw [Qualifier.parse?, if_pos h₃]

end Format

/-- Whether a key is equal to an argument or not: both are parsed, and the one holds where the other
does not. With an absent argument that is not given by `%@` the one holds where the other does. An
argument without a text is compared by `%@` only, and every other pattern fails on it. -/
theorem exists_parse_notEqualTo {key : String} (hk : IsIdentifier key) {specifier : Char}
    (hs : specifier ∈ valueSpecifiers) {v : Value} (hv : ∀ name, v ≠ .placeholder name) :
    (specifier = '@' ∨ v.text? ≠ none → ∃ equal unequal,
      Qualifier.parse? (comparison key .equalTo (patternText specifier)) [v] =
        .ok ⟨some equal, []⟩ ∧
      Qualifier.parse? (comparison key .notEqualTo (patternText specifier)) [v] =
        .ok ⟨some unequal, []⟩ ∧
      ∀ object, ∃ b, equal.value? object = some b ∧
        unequal.value? object = some (if specifier ≠ '@' ∧ v.isAbsent = true then b else !b)) ∧
    (specifier ≠ '@' → v.text? = none →
      ∀ r, Qualifier.parse? (comparison key r (patternText specifier)) [v] =
        .error .symbolInText) := by
  have hl := hk.readableRightKey.leftName
  refine ⟨fun ht => ?_, fun h₁ h₂ => parse?_pattern_textless hl hs hv h₁ h₂⟩
  obtain ⟨d, hd⟩ := exists_parse?_pattern hl hs hv ht
  refine ⟨_, _, hd .equalTo, hd .notEqualTo, fun object => ?_⟩
  refine ⟨((Key.ofText key).valueIn object).normalize.isEqual d, ?_⟩
  have h₁ : dropsRelation specifier v = true ↔ specifier ≠ '@' ∧ v.isAbsent = true := by
    simp [dropsRelation]
  by_cases h : specifier ≠ '@' ∧ v.isAbsent = true
  · rw [if_pos h]
    simp [patternRelation, h₁.2 h, Qualifier.value?, Qualifier.evaluate?, Operation.compare,
      Logged.quiet]
  · rw [if_neg h]
    have h₂ : dropsRelation specifier v = false := Bool.eq_false_iff.2 fun h₃ => h (h₁.1 h₃)
    simp [patternRelation, h₂, Qualifier.value?, Qualifier.evaluate?, Operation.compare,
      Logged.quiet]

/-- A text for `%d`, which is read as a number. -/
theorem exists_parse_notEqualTo_age :
    (IsIdentifier "age" ∧ 'd' ∈ valueSpecifiers ∧
      ∀ name, Value.string "42" ≠ .placeholder name) ∧
    ∃ equal unequal, Qualifier.parse? "age = %d" [.string "42"] = .ok ⟨some equal, []⟩ ∧
      Qualifier.parse? "age != %d" [.string "42"] = .ok ⟨some unequal, []⟩ ∧
      ∀ object, ∃ b, equal.value? object = some b ∧ unequal.value? object = some !b := by
  have h₁ : IsIdentifier "age" := ⟨by decide, by decide, by decide⟩
  have h₂ : ∀ name, Value.string "42" ≠ .placeholder name := by simp
  have h₃ : 'd' ∈ valueSpecifiers := by decide
  have h₄ := (exists_parse_notEqualTo h₁ h₃ h₂).1 (.inr (by simp))
  rw [show comparison "age" .equalTo (patternText 'd') = "age = %d" by decide,
    show comparison "age" .notEqualTo (patternText 'd') = "age != %d" by decide] at h₄
  exact ⟨⟨h₁, h₃, h₂⟩, h₄⟩

/-- Both texts are parsed as the test for null, which holds for an object without a value. -/
theorem parse_notEqualTo_null :
    ∃ q, Qualifier.parse? "a = %s" [.null] = .ok ⟨some q, []⟩ ∧
      Qualifier.parse? "a != %s" [.null] = .ok ⟨some q, []⟩ ∧
      q.value? (.record ⟨[("a", .null)], "a"⟩ []) = some true := by
  refine ⟨.keyValue (.ofText "a") (.known .equalTo) (.constant .null), by rfl, by rfl, ?_⟩
  decide +kernel

end RecordQuery
