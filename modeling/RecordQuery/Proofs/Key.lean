import RecordQuery.Key

/-!
# Keys and their texts

Reading a text as a key does not change it: `Key.text_ofText`. The key that is read from a text is
either a name or a path of several names, and two keys that were read from texts are equal exactly
if the texts are.

Other keys with one text need not be equal, and two that are not can both be equal to a third one:
`Key.isEqual_trans_iff` says when.
-/

namespace RecordQuery

theorem Text.intercalate_eq_joinFields (sep : Char) (ws : List (List Char)) :
    [sep].intercalate ws = Text.joinFields sep ws := by
  induction ws with
  | nil => rfl
  | cons w ws ih =>
    cases ws with
    | nil => simp [Text.joinFields]
    | cons v ws => rw [List.intercalate_cons_cons, ih, Text.joinFields_cons sep w (by simp)]; simp

namespace Key

theorem toList_text (k : Key) :
    k.text.toList = Text.joinFields '.' (k.components.map String.toList) := by
  rw [text_eq_intercalate, String.toList_intercalate]
  exact Text.intercalate_eq_joinFields '.' _

theorem text_ofText (s : String) : (ofText s).text = s := by
  unfold ofText
  split
  · next first second rest h =>
    apply String.toList_injective
    have h₁ : (Text.fields '.' s.toList).map (String.toList ∘ String.ofList) = _ :=
      List.map_id'' (fun w => String.toList_ofList) _
    rw [toList_text, components, ← h, Text.splitAt, List.map_map, h₁, Text.joinFields_fields]
  · rfl

/-- A key that was read from a text is the key that its own text is read as. -/
theorem ofText_text_ofText (s : String) : ofText (ofText s).text = ofText s := by
  rw [text_ofText]

/-! ## What a key addresses -/

theorem valueIn_missing (k : Key) : k.valueIn .missing = .missing :=
  Value.lookupPath_of_isAbsent rfl _

/-- A plain name addresses the entry of a map under it. -/
theorem valueIn_map {name : String} (h₁ : '.' ∉ name.toList) (h₂ : name ≠ "")
    (es : List (String × Value)) :
    (Key.name name).valueIn (.map es) = (Entries.get? name es).getD .missing := by
  rw [Key.valueIn, Key.text, Value.lookupText_of_notMem name h₁ h₂, Value.lookup]

/-! ## Chains of equal keys -/

/-- The keys are not two paths with different numbers of names. -/
def lengthsAgree : Key → Key → Bool
  | path _ r, path _ s => r.length == s.length
  | _, _ => true

theorem isEqual_iff {k j : Key} :
    k.isEqual j = true ↔ k.text = j.text ∧ k.lengthsAgree j = true := by
  cases k <;> cases j <;> simp [isEqual, lengthsAgree, and_comm]

/-- The ends of a chain of equal keys are equal unless they are paths of different lengths. -/
theorem isEqual_trans_iff {k j l : Key} (h₁ : k.isEqual j = true) (h₂ : j.isEqual l = true) :
    k.isEqual l = true ↔ k.lengthsAgree l = true := by
  have h₃ := (text_eq_of_isEqual h₁).trans (text_eq_of_isEqual h₂)
  rw [isEqual_iff, and_iff_right h₃]

end Key

end RecordQuery
