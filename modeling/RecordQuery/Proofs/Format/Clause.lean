import RecordQuery.Proofs.Format.Literal
import RecordQuery.Proofs.Format.Operation
import RecordQuery.Proofs.Qualifier.Reread

/-!
# Written comparisons are read back

Which names can stand on the two sides of an operation, and what a written comparison is read as.

* `clause_keyValue`: a comparison with an operand;
* `clause_keyComparison`: a comparison of two keys.
-/

namespace RecordQuery.Format

variable {rest : List Char} (args : List Value)

/-! ## Names -/

/-- A name that opens a clause: it is not taken for a negation or for raw SQL. -/
structure OpensClause (s : String) : Prop extends IsName s where
  notNegation : stripKeyword? "NOT" s.toList = none
  notSql : strip? "SQL[".toList s.toList = none

/-- A name on the left of an operation: it stands for itself, not for an argument. -/
structure LeftName (s : String) : Prop extends OpensClause s where
  notPattern : isPattern s = false

/-- A name on the right of an operation: it is not taken for a placeholder, for an argument, or for
a constant. -/
structure RightName (s : String) : Prop extends IsName s where
  noMark : ∀ c ∈ s.toList.head?, c ≠ '$' ∧ c ≠ '%' ∧ c ≠ Text.quote ∧ c ≠ Text.doubleQuote
  noLiteral : takeLiteralWord? s.toList = none

theorem IsName.exists_cons {s : String} (h : IsName s) :
    ∃ c t, s.toList = c :: t ∧ isDigit c = false ∧ isBreak c = false := by
  obtain ⟨h₁, h₂, h₃⟩ := h
  cases hs : s.toList with
  | nil => exact absurd hs h₁
  | cons c t =>
    rw [hs] at h₂ h₃
    exact ⟨c, t, rfl, h₂ c rfl, h₃ c (by simp)⟩

theorem skipSpaces_name {s : String} (h : IsName s) (r : List Char) :
    skipSpaces (s.toList ++ r) = s.toList ++ r := by
  obtain ⟨c, t, h₁, -, h₂⟩ := h.exists_cons
  rw [h₁, List.cons_append, skipSpaces_cons_of_not_isSpace (isSpace_of_isBreak_eq_false h₂)]

theorem takeLiteralWord?_eq_none_iff {w : List Char} {r : List Char} (hr : EndsName r) :
    takeLiteralWord? (w ++ r) = none ↔ takeLiteralWord? w = none := by
  have h : ∀ p ∈ literalWords, ∀ t ∈ p.1.toList, isBreak t = false := by decide
  simp only [takeLiteralWord?, List.findSome?_eq_none_iff, Option.map_eq_none_iff]
  refine forall₂_congr fun p hp => ?_
  rw [stripKeyword?_append (h p hp) w hr, Option.map_eq_none_iff]

theorem RightName.startsConstant {s : String} (h : RightName s) {r : List Char} (hr : EndsName r) :
    startsConstant (s.toList ++ r) = false := by
  have h₁ := (takeLiteralWord?_eq_none_iff hr).2 h.noLiteral
  obtain ⟨c, t, h₂, h₃, h₄⟩ := h.exists_cons
  have h₅ := h.noMark
  rw [h₂] at h₁ h₅ ⊢
  obtain ⟨-, -, h₆, h₇⟩ := h₅ c rfl
  have h₈ : c ≠ '(' ∧ c ≠ '-' := by
    constructor <;> rintro rfl <;> exact absurd h₄ (by decide)
  rw [List.cons_append] at h₁ ⊢
  have h₉ : startsNumeral (c :: (t ++ r)) = false := by
    cases t ++ r <;> simp [startsNumeral, h₃, h₈.2]
  have h₁₀ : ¬ '\x27' = c ∧ ¬ '\x22' = c := ⟨Ne.symm h₆, Ne.symm h₇⟩
  simp [Format.startsConstant, startsWith, strip?, h₁, h₈.1.symm, h₉, h₁₀]

/-! ## What follows a clause -/

/-- Nothing, a space or a closing parenthesis, and then no word `NULL`, which would make a test for
null of a comparison with a key named `NOT`. -/
structure EndsClause (r : List Char) : Prop where
  head : ∀ c ∈ r.head?, isSpace c = true ∨ c = ')'
  noNull : stripKeyword? "NULL" (skipSpaces r) = none

theorem EndsClause.endsLiteral {r : List Char} (h : EndsClause r) : EndsLiteral r := by
  intro c hc
  rcases h.head c hc with h₁ | h₁
  · exact .inl h₁
  · exact .inr (.inr h₁)

theorem EndsClause.endsName {r : List Char} (h : EndsClause r) : EndsName r := by
  intro c hc
  rcases h.head c hc with h₁ | rfl
  · exact isBreak_of_isSpace h₁
  · rfl

theorem endsClause_nil : EndsClause [] :=
  ⟨by simp, rfl⟩

theorem endsClause_parenthesis (r : List Char) : EndsClause (')' :: r) :=
  ⟨by simp, by simp [skipSpaces, isSpace, stripKeyword?, strip?]⟩

/-! ## Keys and operations -/

theorem clause_name (size : Nat) {s : String} (h : LeftName s) {r : List Char} (hr : EndsName r) :
    clause size ⟨s.toList ++ r, args⟩ = afterKey size s ⟨r, args⟩ := by
  simp [clause, takeName?_append h.toIsName hr, resolve, h.notPattern, Cursor.at]

theorem afterKey_operation (size : Nat) (key : String) {op : Operation} (h : ReadableOperation op)
    (r : List Char) :
    ∃ word, Operation.ofToken word = op ∧
      afterKey size key ⟨' ' :: (op.token.toList ++ ' ' :: r), args⟩ =
        afterOperation size key word ⟨' ' :: r, args⟩ := by
  obtain ⟨word, h₁, h₂, h₃⟩ := h.taken r
  refine ⟨word, h₃, ?_⟩
  simp [afterKey, Cursor.at, skipSpaces_of_takeOperation? h₁, h.notBare r, h₁, resolve, h₂]

/-! ## Operands -/

/-- An operand that is read back after every operation. -/
def LegibleOperand : Operand → Prop
  | .constant c => c.isFlat = true
  | .placeholder name => IsName name

/-- What starts with no mark is a constant or a key. -/
theorem operand_cons (size : Nat) (key token : String) {d : Char} (h₁ : isSpace d = false)
    (h₂ : d ≠ '$') (h₃ : d ≠ '%') (r : List Char) :
    operand size key token ⟨' ' :: d :: r, args⟩ =
      if startsConstant (d :: r) then
        (constantOrList size (.ofToken token) ⟨d :: r, args⟩).map
          fun v => .ofKeyText key (.ofToken token) v
      else
        match takeName? (d :: r) with
        | some (name, r) =>
          .ok (.keyComparison (.ofText key) (.ofToken token) (.ofText name)) ⟨r, args⟩
        | none => noOperand key token := by
  simp only [operand, Cursor.at, skipSpaces_space_cons, skipSpaces_cons_of_not_isSpace h₁]
  split
  · contradiction
  · next h => exact absurd (List.cons.inj h).1 h₂
  · next h => exact absurd (List.cons.inj h).1 h₃
  · rfl

/-- What opens like a constant and starts like one is compared with as a constant or a list. -/
theorem operand_of_startsConstant (size : Nat) (key token : String) {d : Char}
    (h₁ : opensConstant d = true) {r : List Char} (h₂ : startsConstant (d :: r) = true) :
    operand size key token ⟨' ' :: d :: r, args⟩ =
      (constantOrList size (.ofToken token) ⟨d :: r, args⟩).map
        fun v => .ofKeyText key (.ofToken token) v := by
  simp only [opensConstant, Bool.and_eq_true, Bool.not_eq_true', bne_iff_ne] at h₁
  rw [operand_cons args size key token h₁.1.1.1 h₁.1.1.2 h₁.1.2, if_pos h₂]

theorem operand_constant (size : Nat) (key token : String) {c : Constant} (h : c.isFlat = true)
    (hr : EndsLiteral rest) :
    operand size key token ⟨' ' :: (c.text.toList ++ rest), args⟩ =
      .ok (.keyValue (.ofText key) (.ofToken token) (.constant c.reread)) ⟨rest, args⟩ := by
  have h₁ := startsConstant_text c hr
  have h₂ := constantOrList_text args size (.ofToken token) h hr
  obtain ⟨d, t, h₃, h₄, -⟩ := exists_text_eq_cons c
  rw [h₃, List.cons_append] at h₁ h₂ ⊢
  rw [operand_of_startsConstant args size key token h₄ h₁, h₂]
  simp [Step.map, Step.ok, Qualifier.ofKeyText, Operand.ofValue_toValue]

theorem operand_placeholder (size : Nat) (key token : String) {name : String} (h : IsName name)
    (hr : EndsName rest) :
    operand size key token ⟨' ' :: '$' :: (name.toList ++ rest), args⟩ =
      .ok (.keyValue (.ofText key) (.ofToken token) (.placeholder name)) ⟨rest, args⟩ := by
  have h₁ : skipSpaces ('$' :: (name.toList ++ rest)) = '$' :: (name.toList ++ rest) := rfl
  simp [operand, Cursor.at, h₁, takeName?_append h hr]

theorem operand_name (size : Nat) (key token : String) {name : String} (h : RightName name)
    (hr : EndsName rest) :
    operand size key token ⟨' ' :: (name.toList ++ rest), args⟩ =
      .ok (.keyComparison (.ofText key) (.ofToken token) (.ofText name)) ⟨rest, args⟩ := by
  have h₁ := h.startsConstant hr
  have h₂ := takeName?_append h.toIsName hr
  obtain ⟨d, t, h₃, -, h₄⟩ := h.exists_cons
  have h₅ := h.noMark
  rw [h₃] at h₁ h₂ h₅ ⊢
  rw [List.cons_append] at h₁ h₂ ⊢
  rw [operand_cons args size key token (isSpace_of_isBreak_eq_false h₄) (h₅ d rfl).1
    (h₅ d rfl).2.1, h₁, h₂]
  rfl

/-! ## The test for null -/

/-- Only `NULL` and `NOT` open a test for null, and both start with one letter. -/
theorem nullTest?_cons {d : Char} (h₁ : isSpace d = false) (h₂ : d ≠ 'N') (r : List Char) :
    nullTest? (' ' :: d :: r) = none := by
  simp [nullTest?, skipSpaces_cons_of_not_isSpace h₁, stripKeyword?, strip?, h₂.symm]

theorem nullTest?_null (hr : EndsLiteral rest) :
    nullTest? (' ' :: ("NULL".toList ++ rest)) = some (.equalTo, rest) := by
  simp [nullTest?, skipSpaces, isSpace, stripKeyword?, strip?, Option.filter, hr.endsKeyword]

theorem nullTest?_notNull (hr : EndsLiteral rest) :
    nullTest? (' ' :: ("NOT NULL".toList ++ rest)) = some (.notEqualTo, rest) := by
  have h : ∀ r, endsKeyword (' ' :: r) = true := fun _ => rfl
  simp [nullTest?, skipSpaces, isSpace, stripKeyword?, strip?, Option.filter, hr.endsKeyword, h]

/-- A word that no break ends a keyword in is the keyword, or goes on with a comma. -/
theorem eq_of_stripKeyword? {kw s : String} {u : List Char} (hs : ∀ c ∈ s.toList, isBreak c = false)
    (h : stripKeyword? kw s.toList = some u) : u = [] ∨ ∃ v, u = ',' :: v := by
  obtain ⟨h₁, h₂⟩ := Option.filter_eq_some_iff.1 h
  have h₃ := strip?_eq_some.1 h₁
  cases u with
  | nil => exact .inl rfl
  | cons c v =>
    have h₄ : isBreak c = false := hs c (by simp [h₃])
    simp only [endsKeyword, h₄, Bool.false_or, beq_iff_eq] at h₂
    exact .inr ⟨v, by rw [h₂]⟩

/-- A key on the right of `IS` is no test for null, even if its name is `NOT`. -/
theorem nullTest?_name {name : String} (h : RightName name) (hr : EndsClause rest) :
    nullTest? (' ' :: (name.toList ++ rest)) = none := by
  have h₁ : stripKeyword? "NULL" name.toList = none := by
    have h₂ := h.noLiteral
    simp only [takeLiteralWord?, List.findSome?_eq_none_iff, Option.map_eq_none_iff] at h₂
    exact h₂ ("NULL", .null) (by simp [literalWords])
  have hNot : ∀ t ∈ "NOT".toList, isBreak t = false := by decide
  have hNull : ∀ t ∈ "NULL".toList, isBreak t = false := by decide
  simp only [nullTest?, skipSpaces_space_cons, skipSpaces_name h.toIsName,
    stripKeyword?_append hNot _ hr.endsName, stripKeyword?_append hNull _ hr.endsName, h₁]
  cases h₂ : stripKeyword? "NOT" name.toList with
  | none => rfl
  | some u =>
    rcases eq_of_stripKeyword? h.noBreak h₂ with rfl | ⟨v, rfl⟩
    · simp [hr.noNull]
    · simp [skipSpaces, isSpace, stripKeyword?, strip?]

/-! ## Comparisons -/

theorem afterOperation_of_nullTest? (size : Nat) (key word : String) {r : List Char}
    (h : nullTest? r = none) :
    afterOperation size key word ⟨r, args⟩ = operand size key word ⟨r, args⟩ := by
  simp [afterOperation, h]

/-- The token `IS` is readable, although it names no relation. -/
theorem readable_is : ReadableOperation (.other "IS") :=
  readable_other (r := []) ⟨by decide, by decide, by decide⟩ rfl (by decide) (by simp) rfl rfl

theorem ofToken_eq_is_iff {word : String} : Operation.ofToken word = .other "IS" ↔ word = "IS" := by
  constructor
  · exact eq_of_ofToken_eq_other
  · rintro rfl
    decide

theorem clause_keyComparison (size : Nat) {left right : Key} {op : Operation}
    (hl : LeftName left.text) (ho : ReadableOperation op) (hk : RightName right.text)
    (hr : EndsClause rest) :
    clause size ⟨(Qualifier.keyComparison left op right).text.toList ++ rest, args⟩ =
      .ok (Qualifier.keyComparison left op right).reread ⟨rest, args⟩ := by
  obtain ⟨word, h₁, h₂⟩ := afterKey_operation args size left.text ho
    (right.text.toList ++ rest)
  have h₃ : (Qualifier.keyComparison left op right).text.toList ++ rest =
      left.text.toList ++ ' ' :: (op.token.toList ++ ' ' :: (right.text.toList ++ rest)) := by
    simp [Qualifier.text]
  rw [h₃, clause_name args size hl (endsWord_space_cons _).endsName, h₂,
    afterOperation_of_nullTest? args size _ _ (nullTest?_name hk hr),
    operand_name args size _ _ hk hr.endsName, h₁]
  rfl

theorem afterOperation_constant (size : Nat) (key word : String) {c : Constant}
    (h₁ : c.isFlat = true) (h₂ : c ≠ .null) (hr : EndsLiteral rest) :
    afterOperation size key word ⟨' ' :: (c.text.toList ++ rest), args⟩ =
      .ok (.keyValue (.ofText key) (.ofToken word) (.constant c.reread)) ⟨rest, args⟩ := by
  rw [afterOperation_of_nullTest?, operand_constant args size key word h₁ hr]
  obtain ⟨d, t, h₃, h₄, -, h₅⟩ := exists_text_eq_cons c
  simp only [opensConstant, Bool.and_eq_true, Bool.not_eq_true'] at h₄
  rw [h₃, List.cons_append]
  exact nullTest?_cons h₄.1.1.1 (fun h => h₂ (h₅ h)) _

theorem afterOperation_null (size : Nat) (key : String) {word : String} (h : word ≠ "IS")
    (hr : EndsLiteral rest) :
    afterOperation size key word ⟨' ' :: (Constant.null.text.toList ++ rest), args⟩ =
      .ok (.keyValue (.ofText key) (.ofToken word) (.constant .null)) ⟨rest, args⟩ := by
  have hn : Constant.null.isFlat = true := rfl
  have h₁ := operand_constant args size key word hn hr
  simp only [afterOperation, if_neg h]
  exact h₁

theorem afterOperation_is (size : Nat) (key : String) {r : Relation} {cs : List Char}
    (h : nullTest? cs = some (r, rest)) :
    afterOperation size key "IS" ⟨cs, args⟩ =
      .ok (.keyValue (.ofText key) (.known r) (.constant .null)) ⟨rest, args⟩ := by
  simp [afterOperation, h, Cursor.at]

/-- A key, the token of an operation and further text are read as the operation with that text. -/
theorem clause_operation (size : Nat) {key : String} (hk : LeftName key) {op : Operation}
    (ho : ReadableOperation op) (r : List Char) :
    ∃ word, Operation.ofToken word = op ∧
      clause size ⟨key.toList ++ ' ' :: (op.token.toList ++ ' ' :: r), args⟩ =
        afterOperation size key word ⟨' ' :: r, args⟩ := by
  obtain ⟨word, h₁, h₂⟩ := afterKey_operation args size key ho r
  refine ⟨word, h₁, ?_⟩
  rw [clause_name args size hk (endsWord_space_cons _).endsName, h₂]

/-- After an operation, what opens like a constant is one, unless it may be the test for null. -/
theorem afterOperation_of_startsConstant (size : Nat) (key word : String) {d : Char}
    (h₁ : opensConstant d = true) (h₂ : d ≠ 'N') {r : List Char}
    (h₃ : startsConstant (d :: r) = true) :
    afterOperation size key word ⟨' ' :: d :: r, args⟩ =
      (constantOrList size (.ofToken word) ⟨d :: r, args⟩).map
        fun v => .ofKeyText key (.ofToken word) v := by
  have h₄ : isSpace d = false := by
    simp only [opensConstant, Bool.and_eq_true, Bool.not_eq_true'] at h₁
    exact h₁.1.1.1
  rw [afterOperation_of_nullTest? args size key word (nullTest?_cons h₄ h₂ r),
    operand_of_startsConstant args size key word h₁ h₃]

/-- A pattern in the place of a value takes the next argument. -/
theorem afterOperation_pattern (size : Nat) (key word : String) (specifier : Char) (v : Value) :
    afterOperation size key word ⟨' ' :: '%' :: specifier :: rest, v :: args⟩ =
      argumentComparison key (.ofToken word) specifier v ⟨rest, args⟩ := by
  have h : skipSpaces ('%' :: specifier :: rest) = '%' :: specifier :: rest := rfl
  rw [afterOperation_of_nullTest? (v :: args) size key word
    (nullTest?_cons rfl (by decide) (specifier :: rest))]
  simp [operand, Cursor.at, h, argumentValue]

theorem clause_isNull (size : Nat) {key : String} (hk : LeftName key) (hr : EndsLiteral rest) :
    clause size ⟨(key ++ " IS NULL").toList ++ rest, args⟩ =
      .ok (.keyValue (.ofText key) (.known .equalTo) (.constant .null)) ⟨rest, args⟩ := by
  obtain ⟨word, h₁, h₂⟩ := clause_operation args size hk readable_is
    ("NULL".toList ++ rest)
  obtain rfl := ofToken_eq_is_iff.1 h₁
  rw [afterOperation_is args size key (nullTest?_null hr)] at h₂
  rw [← h₂]
  simp [Operation.token]

theorem clause_isNotNull (size : Nat) {key : String} (hk : LeftName key) (hr : EndsLiteral rest) :
    clause size ⟨(key ++ " IS NOT NULL").toList ++ rest, args⟩ =
      .ok (.keyValue (.ofText key) (.known .notEqualTo) (.constant .null)) ⟨rest, args⟩ := by
  obtain ⟨word, h₁, h₂⟩ := clause_operation args size hk readable_is
    ("NOT NULL".toList ++ rest)
  obtain rfl := ofToken_eq_is_iff.1 h₁
  rw [afterOperation_is args size key (nullTest?_notNull hr)] at h₂
  rw [← h₂]
  simp [Operation.token]

/-- A comparison with null is read back, through a test for null or not. -/
theorem clause_null (size : Nat) {key : Key} {op : Operation} (hk : LeftName key.text)
    (ho : ReadableOperation op) (hr : EndsLiteral rest) :
    clause size ⟨(Qualifier.keyValue key op (.constant .null)).text.toList ++ rest, args⟩ =
      .ok (Qualifier.keyValue key op (.constant .null)).reread ⟨rest, args⟩ := by
  by_cases h₁ : op = .known .equalTo
  · subst h₁
    exact clause_isNull args size hk hr
  by_cases h₂ : op = .known .notEqualTo
  · subst h₂
    exact clause_isNotNull args size hk hr
  have h₃ : (Qualifier.keyValue key op (.constant .null)).text =
      key.text ++ " " ++ op.token ++ " " ++ Constant.null.text := by
    rw [Qualifier.text, Qualifier.comparisonText] <;> simp_all [Operand.text]
  by_cases h₄ : op = .other "IS"
  · subst h₄
    have h₅ := clause_isNull args size hk hr
    rw [h₃, Qualifier.reread, Qualifier.rereadOperation, if_pos rfl, Operand.reread_null]
    simpa [Operation.token, Constant.text] using h₅
  · obtain ⟨word, h₅, h₆⟩ := clause_operation args size hk ho
      (Constant.null.text.toList ++ rest)
    have h₇ : word ≠ "IS" := fun h => h₄ (by rw [← h₅, ofToken_eq_is_iff.2 h])
    rw [afterOperation_null args size _ h₇ hr, h₅] at h₆
    rw [h₃, Qualifier.reread, Qualifier.rereadOperation, if_neg h₄, Operand.reread_null]
    simpa using h₆

theorem clause_keyValue (size : Nat) {key : Key} {op : Operation} {v : Operand}
    (hk : LeftName key.text) (ho : ReadableOperation op) (hv : LegibleOperand v)
    (hl : EndsLiteral rest) (hn : EndsName rest) :
    clause size ⟨(Qualifier.keyValue key op v).text.toList ++ rest, args⟩ =
      .ok (Qualifier.keyValue key op v).reread ⟨rest, args⟩ := by
  by_cases hc : v = .constant .null
  · subst hc
    exact clause_null args size hk ho hl
  have h₁ : (Qualifier.keyValue key op v).text.toList ++ rest =
      key.text.toList ++ ' ' :: (op.token.toList ++ ' ' :: (v.text.toList ++ rest)) := by
    rw [Qualifier.text, Qualifier.comparisonText] <;> simp_all
  obtain ⟨word, h₂, h₃⟩ := clause_operation args size hk ho (v.text.toList ++ rest)
  rw [h₁, h₃, Qualifier.reread, Qualifier.rereadOperation_of_ne op hc, ← h₂]
  cases v with
  | constant c =>
    have h₄ : c ≠ .null := fun h => hc (by rw [h])
    exact afterOperation_constant args size _ _ hv h₄ hl
  | placeholder name =>
    have h₄ : (Operand.placeholder name).text.toList = '$' :: name.toList := by
      simp [Operand.text]
    rw [h₄, List.cons_append,
      afterOperation_of_nullTest? args size _ _ (nullTest?_cons rfl (by decide) _)]
    exact operand_placeholder args size _ _ hv hn

end RecordQuery.Format
