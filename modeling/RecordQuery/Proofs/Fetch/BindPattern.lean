import RecordQuery.Fetch.BindPattern

/-!
# Bind patterns and what they stand for

A pattern is written piece by piece: a literal text with every percent sign doubled, or a field.
Whatever the pieces and the bindings are, what is filled in is each literal text as it was and each
value as a text, one after the other: `formatPattern_sources`. The texts of values are not looked at
again, and a percent sign at the end of one piece never belongs to the next one.
-/

namespace RecordQuery

/-- A piece of a pattern: a text that stands for itself, or a field for the value at a key path. -/
inductive PatternPiece where
  | literal (text : String)
  | field (key : String)

namespace PatternPiece

/-- A character of a literal text as it is written in a pattern. -/
def written (c : Char) : List Char :=
  if c = '%' then ['%', '%'] else [c]

/-- The piece as it is written in a pattern. -/
def source : PatternPiece → String
  | literal text => .ofList (text.toList.flatMap written)
  | field key => "%(" ++ key ++ ")s"

/-- What the piece stands for: a literal text for itself, a field for the text of the value at its
key path, which is empty if there is none or null. -/
def content (bindings : Value) : PatternPiece → String
  | literal text => text
  | field key =>
    let value := bindings.lookupText key
    if value.isAbsent then "" else value.text

end PatternPiece

/-! ## Filling in -/

theorem fillFields_nil (bindings : Value) : fillFields bindings [] = [] := by
  rw [fillFields]

theorem fillFields_percent (bindings : Value) (r : List Char) :
    fillFields bindings ('%' :: '%' :: r) = '%' :: fillFields bindings r := by
  rw [fillFields]

theorem fillFields_cons_of_ne {c : Char} (h : c ≠ '%') (bindings : Value) (r : List Char) :
    fillFields bindings (c :: r) = c :: fillFields bindings r := by
  rw [fillFields]
  · exact fun _ h₁ _ => h h₁
  · exact fun _ h₁ _ => h h₁

theorem fieldKey?_append {key : List Char} (h : ')' ∉ key) (r : List Char) :
    fieldKey? (key ++ ')' :: 's' :: r) = some (key, r) := by
  have h₁ : ∀ c ∈ key, (c != ')') = true := fun c hc => bne_iff_ne.2 fun h' => h (h' ▸ hc)
  simp [fieldKey?, List.dropWhile_append_of_pos h₁, List.takeWhile_append_of_pos h₁]

theorem fillFields_field (bindings : Value) {key : List Char} (h : ')' ∉ key) (r : List Char) :
    fillFields bindings ('%' :: '(' :: (key ++ ')' :: 's' :: r)) =
      fieldText (bindings.lookupText (.ofList key)) ++ fillFields bindings r := by
  rw [fillFields]
  split
  next key' r' h₁ =>
    rw [fieldKey?_append h, Option.some.injEq, Prod.mk.injEq] at h₁
    rw [h₁.1, h₁.2]
  next h₁ =>
    rw [fieldKey?_append h] at h₁
    contradiction

/-! ## Patterns piece by piece -/

namespace PatternPiece

theorem fillFields_written (bindings : Value) (text rest : List Char) :
    fillFields bindings (text.flatMap written ++ rest) = text ++ fillFields bindings rest := by
  induction text with
  | nil => rfl
  | cons c text ih =>
    by_cases h : c = '%'
    · simp [written, h, fillFields_percent, ih]
    · simp [written, h, fillFields_cons_of_ne h, ih]

theorem toList_content_field (bindings : Value) (key : String) :
    ((field key).content bindings).toList = fieldText (bindings.lookupText key) := by
  rw [content, fieldText]
  split <;> rfl

/-- One piece is filled in whatever follows it, and what follows is filled in on its own. -/
theorem fillFields_source {p : PatternPiece} (h : ∀ key, p = field key → ')' ∉ key.toList)
    (bindings : Value) (rest : List Char) :
    fillFields bindings (p.source.toList ++ rest) =
      (p.content bindings).toList ++ fillFields bindings rest := by
  cases p with
  | literal text =>
    rw [source, String.toList_ofList]
    exact fillFields_written bindings text.toList rest
  | field key =>
    have h₁ : (field key).source.toList ++ rest =
        '%' :: '(' :: (key.toList ++ ')' :: 's' :: rest) := by
      simp [source]
    rw [h₁, fillFields_field bindings (h key rfl), String.ofList_toList, toList_content_field]

theorem fillFields_sources {pieces : List PatternPiece}
    (h : ∀ key, field key ∈ pieces → ')' ∉ key.toList) (bindings : Value) (rest : List Char) :
    fillFields bindings ((String.join (pieces.map source)).toList ++ rest) =
      (String.join (pieces.map (content bindings))).toList ++ fillFields bindings rest := by
  induction pieces with
  | nil => rfl
  | cons p pieces ih =>
    have h₁ : ∀ key, p = field key → ')' ∉ key.toList := fun key hp => h key (by simp [hp])
    have h₂ := ih fun key hk => h key (List.mem_cons_of_mem _ hk)
    rw [List.map_cons, List.map_cons, String.join_cons, String.join_cons, String.toList_append,
      String.toList_append, List.append_assoc, fillFields_source h₁, h₂, List.append_assoc]

/-- A pattern that is written piece by piece is filled in piece by piece, if no key has a closing
parenthesis in it: a literal text comes out as it was, and a field as the text of the value at its
key path, whatever is in them. What follows the pieces is filled in as it is without them, so that
nothing that was filled in is looked at again. -/
theorem formatPattern_sources {pieces : List PatternPiece}
    (h : ∀ key, field key ∈ pieces → ')' ∉ key.toList) (bindings : Value) :
    formatPattern (String.join (pieces.map source)) bindings =
        String.join (pieces.map (content bindings)) ∧
      ∀ rest, formatPattern (String.join (pieces.map source) ++ rest) bindings =
        String.join (pieces.map (content bindings)) ++ formatPattern rest bindings := by
  have h₁ := fillFields_sources h bindings
  constructor
  · apply String.toList_injective
    rw [formatPattern, String.toList_ofList]
    simpa [fillFields_nil] using h₁ []
  · intro rest
    apply String.toList_injective
    rw [formatPattern, formatPattern, String.toList_append, String.toList_append,
      String.toList_ofList, String.toList_ofList]
    exact h₁ rest.toList

/-- A literal text that looks like a field and ends in a percent sign, a key with a percent sign,
and values that look like patterns. -/
theorem formatPattern_sources_percent :
    let pieces := [literal "100%", field "a.b", literal "%(a.b)s%", field "%", field "c", literal ""]
    let bindings : Value := .map [("a", .map [("b", .string "%(c)s%%")]),
      ("%", .array [.string "%", .null]), ("c", .null)]
    (∀ key, field key ∈ pieces → ')' ∉ key.toList) ∧
      String.join (pieces.map source) = "100%%%(a.b)s%%(a.b)s%%%(%)s%(c)s" ∧
      formatPattern (String.join (pieces.map source)) bindings = "100%%(c)s%%%(a.b)s%%," ∧
      ∀ rest, formatPattern ("100%%%(a.b)s%%(a.b)s%%%(%)s%(c)s" ++ rest) bindings =
        "100%%(c)s%%%(a.b)s%%," ++ formatPattern rest bindings := by
  intro pieces bindings
  have h : ∀ key, field key ∈ pieces → ')' ∉ key.toList := by
    simp [pieces]
  have h₁ : String.join (pieces.map source) = "100%%%(a.b)s%%(a.b)s%%%(%)s%(c)s" := by decide
  have h₂ : Text.splitAt '.' "a.b" = ["a", "b"] := by decide
  have h₃ : Text.splitAt '.' "%" = ["%"] := by decide
  have h₄ : Text.splitAt '.' "c" = ["c"] := by decide
  have h₅ : String.join (pieces.map (content bindings)) = "100%%(c)s%%%(a.b)s%%," := by
    simp [pieces, bindings, content, Value.lookupText, h₂, h₃, h₄, Value.lookupPath, Value.lookup,
      Entries.get?, Value.isAbsent, Value.isSymbol, Value.text,
      Value.text?, Value.elementTexts?]
  obtain ⟨h₆, h₇⟩ := formatPattern_sources h bindings
  rw [h₅] at h₆ h₇
  rw [h₁] at h₇
  exact ⟨h, h₁, h₆, h₇⟩

end PatternPiece

end RecordQuery
