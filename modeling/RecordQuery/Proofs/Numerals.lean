import RecordQuery.Proofs.Meaning

/-!
# Numerals in conditions

A key, a relation and a number in any of its written forms, of any length, are parsed as the
comparison with the double nearest to the number, and nothing is logged. From `2 ^ 1024 - 2 ^ 970`
on there is no such double: then the comparison is with null, and nothing is logged either
(`parse_comparison_numeral`).
-/

namespace RecordQuery

open Format

namespace Format

variable {rest : List Char} (args : List Value)

/-- A numeral after an operation makes the comparison with its number, or with null if the number is
not finite. -/
theorem afterOperation_numeral (size : Nat) (key word : String) {cs : List Char}
    (h : TakenAsNumeral cs rest) {d : Decimal} (hd : Decimal.read? cs = some d) :
    afterOperation size key word ⟨' ' :: (cs ++ rest), args⟩ =
      .ok (.keyValue (.ofText key) (.ofToken word) (.constant (Value.normalizeNumber d.toNumber)))
        ⟨rest, args⟩ := by
  have h₁ := startsConstant_numeral h
  have h₂ := literal_numeral args size h hd
  obtain ⟨c, t, rfl, h₃, h₄, h₅⟩ := h.exists_cons
  rw [List.cons_append] at h₁ h₂ ⊢
  rw [afterOperation_of_startsConstant args size key word h₃ h₅ h₁]
  simp [constantOrList, constant, strip?, h₄.symm, h₂, Qualifier.ofKeyText, Operand.ofValue,
    Value.normalize]

/-- A key, a relation and a number are parsed, and nothing is logged. -/
theorem LeftName.parse_numeral {key : String} (hk : LeftName key) (r : Relation) (t : NumberText) :
    Qualifier.parse (comparison key r t.text) [] =
      ⟨some (.keyValue (.ofText key) (.known r)
        (.constant (Value.normalizeNumber t.decimal.toNumber))), []⟩ := by
  refine ReadsRow.parse (hk.readsRow_comparison r fun size word rest args hw hr => ?_)
  have h := takenAsNumeral_numberText t hr.endsLiteral
  rw [NumberText.text, String.toList_ofList, List.nil_append, ← hw]
  exact afterOperation_numeral args size key word h t.read?_chars

end Format

/-- A comparison with a number in any of its forms. In the range of doubles the constant is the
finite number nearest to it, and out of range it is null. -/
theorem parse_comparison_numeral {key : String} (hk : IsIdentifier key) (r : Relation)
    (t : NumberText) :
    (t.decimal.IsInRange → ∃ x, t.decimal.toNumber = .finite x ∧
      Qualifier.parse (comparison key r t.text) [] =
        ⟨some (.keyValue (.ofText key) (.known r) (.constant (.number x))), []⟩) ∧
    (¬ t.decimal.IsInRange →
      Qualifier.parse (comparison key r t.text) [] =
        ⟨some (.keyValue (.ofText key) (.known r) (.constant .null)), []⟩) := by
  rw [hk.readableRightKey.leftName.parse_numeral, t.decimal.isInRange_iff]
  cases hx : t.decimal.toNumber with
  | finite x => exact ⟨fun _ => ⟨x, rfl, rfl⟩, fun h => absurd ⟨x, rfl⟩ h⟩
  | infinite negative =>
    refine ⟨?_, fun _ => rfl⟩
    rintro ⟨x, h⟩
    contradiction
  | nan =>
    refine ⟨?_, fun _ => rfl⟩
    rintro ⟨x, h⟩
    contradiction

/-- Two neighbours on the two sides of the limit. -/
theorem parse_comparison_numeral_limit :
    let exponent : ExponentText := ⟨'e', [], ['3', '0', '8'], by decide, by decide, by decide,
      by decide⟩
    let below : NumberText := ⟨false, ['1'], some "7976931348623158".toList, exponent, by decide,
      by decide⟩
    let above : NumberText := ⟨false, ['1'], some "7976931348623159".toList, exponent, by decide,
      by decide⟩
    (IsIdentifier "a" ∧ below.decimal.IsInRange ∧ ¬ above.decimal.IsInRange) ∧
      (∃ x, below.decimal.toNumber = .finite x ∧
        Qualifier.parse "a < 1.7976931348623158e308" [] =
          ⟨some (.keyValue (.ofText "a") (.known .lessThan) (.constant (.number x))), []⟩) ∧
      Qualifier.parse "a < 1.7976931348623159e308" [] =
        ⟨some (.keyValue (.ofText "a") (.known .lessThan) (.constant .null)), []⟩ := by
  intro exponent below above
  have h₁ : IsIdentifier "a" := ⟨by decide, by decide, by decide⟩
  have h₂ : below.decimal.IsInRange := by decide +kernel
  have h₃ : ¬ above.decimal.IsInRange := by decide +kernel
  have h₄ := (parse_comparison_numeral h₁ .lessThan below).1 h₂
  have h₅ := (parse_comparison_numeral h₁ .lessThan above).2 h₃
  have h₆ : comparison "a" .lessThan below.text = "a < 1.7976931348623158e308" := by decide +kernel
  have h₇ : comparison "a" .lessThan above.text = "a < 1.7976931348623159e308" := by decide +kernel
  rw [h₆] at h₄
  rw [h₇] at h₅
  exact ⟨⟨h₁, h₂, h₃⟩, h₄, h₅⟩

/-- A numeral that is parsed as null without a word in the log. -/
theorem parse_numeral_null :
    Qualifier.parse "a = 1e999" [] =
      ⟨some (.keyValue (.ofText "a") (.known .equalTo) (.constant .null)), []⟩ := by
  have h₁ : LeftName "a" := ⟨⟨⟨by decide, by decide, by decide⟩, by decide, by decide⟩, by decide⟩
  let t : NumberText := ⟨false, ['1'], none, some ⟨'e', [], ['9', '9', '9'], by decide, by decide,
    by decide, by decide⟩, by decide, by decide⟩
  have h₂ : t.decimal.toNumber = .infinite false := by decide +kernel
  have h₃ : comparison "a" .equalTo t.text = "a = 1e999" := by decide +kernel
  have h₄ := h₁.parse_numeral .equalTo t
  rwa [h₂, h₃] at h₄

end RecordQuery
