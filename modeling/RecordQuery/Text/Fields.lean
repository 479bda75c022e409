/-!
# Splitting a text at a separator, and joining

`fields sep` cuts a text at every occurrence of one character, `joinFields sep` puts that character
between the pieces. Joining undoes cutting (`joinFields_fields`), and cutting undoes joining if no
piece holds the separator (`fields_joinFields`). A text may also be cut at one occurrence first and
then on either side of it (`fields_append_cons`).
-/

namespace RecordQuery.Text

/-- The pieces between the occurrences of `sep`; a text without any is one piece. -/
def fields (sep : Char) : List Char → List (List Char)
  | [] => [[]]
  | c :: cs => if c = sep then [] :: fields sep cs else (fields sep cs).modifyHead (c :: ·)

/-- The pieces with `sep` between them. -/
def joinFields (sep : Char) : List (List Char) → List Char
  | [] => []
  | [w] => w
  | w :: ws => w ++ sep :: joinFields sep ws

/-- The pieces of a string. -/
def splitAt (sep : Char) (s : String) : List String :=
  (fields sep s.toList).map String.ofList

theorem fields_ne_nil (sep : Char) (cs : List Char) : fields sep cs ≠ [] := by
  cases cs with
  | nil => simp [fields]
  | cons c cs =>
    simp only [fields]
    split
    · simp
    · simpa using fields_ne_nil sep cs

theorem joinFields_cons (sep : Char) (w : List Char) {ws : List (List Char)} (h : ws ≠ []) :
    joinFields sep (w :: ws) = w ++ sep :: joinFields sep ws := by
  cases ws with
  | nil => exact absurd rfl h
  | cons v ws => rfl

theorem joinFields_append (sep : Char) {ws us : List (List Char)} (h₁ : ws ≠ []) (h₂ : us ≠ []) :
    joinFields sep (ws ++ us) = joinFields sep ws ++ sep :: joinFields sep us := by
  induction ws with
  | nil => exact absurd rfl h₁
  | cons w ws ih =>
    by_cases h : ws = []
    · rw [h, List.singleton_append, joinFields_cons sep w h₂, joinFields]
    · rw [List.cons_append, joinFields_cons sep w (by simp [h]), ih h, joinFields_cons sep w h,
        List.append_assoc, List.cons_append]

theorem joinFields_modifyHead (sep c : Char) {ws : List (List Char)} (h : ws ≠ []) :
    joinFields sep (ws.modifyHead (c :: ·)) = c :: joinFields sep ws := by
  match ws, h with
  | [_], _ => rfl
  | _ :: _ :: _, _ => rfl

/-- Joining undoes cutting. -/
theorem joinFields_fields (sep : Char) (cs : List Char) :
    joinFields sep (fields sep cs) = cs := by
  induction cs with
  | nil => rfl
  | cons c cs ih =>
    have h₁ := fields_ne_nil sep cs
    by_cases h : c = sep
    · simp [fields, h, joinFields_cons sep [] h₁, ih]
    · simp [fields, h, joinFields_modifyHead sep c h₁, ih]

/-- A text is cut at one occurrence, and further on either side of it. -/
theorem fields_append_cons (sep : Char) (cs ds : List Char) :
    fields sep (cs ++ sep :: ds) = fields sep cs ++ fields sep ds := by
  induction cs with
  | nil => simp [fields]
  | cons c cs ih =>
    by_cases h : c = sep
    · simp [fields, h, ih]
    · obtain ⟨w, ws, hw⟩ := List.exists_cons_of_ne_nil (fields_ne_nil sep cs)
      simp [fields, h, ih, hw]

theorem fields_of_notMem (sep : Char) {w : List Char} (h : sep ∉ w) : fields sep w = [w] := by
  induction w with
  | nil => rfl
  | cons c w ih =>
    simp only [List.mem_cons, not_or] at h
    have h₁ : c ≠ sep := fun h' => h.1 h'.symm
    simp [fields, h₁, ih h.2]

/-- Cutting undoes joining if no piece holds the separator. -/
theorem fields_joinFields (sep : Char) {ws : List (List Char)} (h₁ : ws ≠ [])
    (h₂ : ∀ w ∈ ws, sep ∉ w) : fields sep (joinFields sep ws) = ws := by
  induction ws with
  | nil => exact absurd rfl h₁
  | cons w ws ih =>
    have hw := h₂ w (by simp)
    cases ws with
    | nil => simp [joinFields, fields_of_notMem sep hw]
    | cons v ws =>
      rw [joinFields_cons sep w (by simp), fields_append_cons, fields_of_notMem sep hw,
        ih (by simp) fun u hu => h₂ u (by simp [hu]), List.singleton_append]

/-- Only an empty text and one that ends in the separator have an empty last piece. -/
theorem getLast_fields_ne_nil {sep : Char} {cs : List Char} (h₁ : cs ≠ [])
    (h₂ : cs.getLast? ≠ some sep) : (fields sep cs).getLast (fields_ne_nil sep cs) ≠ [] := by
  intro h
  have h₃ : (fields sep cs).dropLast ++ [[]] = fields sep cs := by
    rw [← h, List.dropLast_concat_getLast]
  have h₄ : cs = joinFields sep ((fields sep cs).dropLast ++ [[]]) := by
    rw [h₃, joinFields_fields]
  by_cases h₅ : (fields sep cs).dropLast = []
  · rw [h₅] at h₄
    exact h₁ h₄
  · rw [joinFields_append sep h₅ (by simp)] at h₄
    exact h₂ (by rw [h₄, joinFields, List.getLast?_concat])

end RecordQuery.Text
