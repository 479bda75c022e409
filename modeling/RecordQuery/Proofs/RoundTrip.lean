import RecordQuery.Proofs.Format.Legible
import RecordQuery.Proofs.Qualifier.Equality

/-!
# The round trip of qualifiers

A qualifier tree that is built from readable names, known relations and plain constants is read back
from its written form, as an equal one: `Readable.exists_parse_text`. `ReadableRightKey.of_letters`
gives many readable names at once.

The conditions on names are those under which a name is not taken for something else: for a
negation, raw SQL, a pattern, or, on the right of an operation, a constant or a placeholder.
-/

namespace RecordQuery

open Format

/-! ## Readable names -/

/-- A text goes on with a comma after a word. -/
def startsWithComma (word s : String) : Prop :=
  (word ++ ",").toList <+: s.toList

instance (word s : String) : Decidable (startsWithComma word s) :=
  inferInstanceAs (Decidable (_ <+: _))

/-- A key that can be written on the left of an operation: a name that is not taken for raw SQL, a
negation or a pattern. -/
structure ReadableKey (s : String) : Prop extends IsName s where
  notSql : ¬ "SQL[".toList <+: s.toList
  notNegation : s ≠ "NOT" ∧ ¬ startsWithComma "NOT" s
  notPattern : s.toList.head? = some '%' → s = "%"

/-- A key that can be written on the right of an operation: one that is not taken for a
placeholder, a quoted text or a word literal either. -/
structure ReadableRightKey (s : String) : Prop extends ReadableKey s where
  noMark : ∀ c ∈ s.toList.head?, c ≠ '$' ∧ c ≠ '%' ∧ c ≠ Text.quote ∧ c ≠ Text.doubleQuote
  notLiteral : ∀ word ∈ ["true", "false", "NULL", "null", "nil", "YES", "NO"],
    s ≠ word ∧ ¬ startsWithComma word s

/-- A keyword is found in front of a name only if it is the name, or a comma follows it in the
name. -/
theorem stripKeyword?_eq_none {kw s : String} (hs : ∀ c ∈ s.toList, isBreak c = false)
    (h : s ≠ kw ∧ ¬ startsWithComma kw s) : stripKeyword? kw s.toList = none := by
  cases h₁ : stripKeyword? kw s.toList with
  | none => rfl
  | some u =>
    have h₂ := strip?_eq_some.1 (Option.filter_eq_some_iff.1 h₁).1
    rcases eq_of_stripKeyword? hs h₁ with rfl | ⟨v, rfl⟩
    · exact absurd (String.toList_injective (by simpa using h₂)) h.1
    · exact absurd ⟨v, by simp [h₂]⟩ h.2

theorem isDigit_eq_false_of_isAlpha {c : Char} (h : c.isAlpha = true) : isDigit c = false := by
  have h₁ : 65 ≤ c.val.toNat := by
    rcases Bool.or_eq_true_iff.1 h with h | h
    · have h₂ : 'A'.val ≤ c.val ∧ c.val ≤ 'Z'.val := of_decide_eq_true h
      exact UInt32.le_iff_toNat_le.1 h₂.1
    · have h₂ : 97 ≤ c.val.toNat :=
        UInt32.le_iff_toNat_le.1 (of_decide_eq_true (Bool.and_eq_true_iff.1 h).1)
      omega
  have h₂ : ¬ c ≤ '9' := by
    intro h₃
    have h₄ : c.val.toNat ≤ 57 := UInt32.le_iff_toNat_le.1 (Char.le_def.1 h₃)
    omega
  simp [isDigit, h₂]

/-- Words of letters are names. -/
theorem isName_of_letters {s : String} (h₁ : s ≠ "") (h₂ : ∀ c ∈ s.toList, c.isAlpha = true) :
    IsName s := by
  refine ⟨by simpa using h₁, fun c hc => ?_, fun c hc => ?_⟩
  · exact isDigit_eq_false_of_isAlpha (h₂ c (List.mem_of_mem_head? hc))
  · exact isBreak_eq_false (p := Char.isAlpha) (by decide) (h₂ c hc)

/-- Words of letters and dots are readable on both sides, but for those that mean something. -/
theorem ReadableRightKey.of_lettersAndDots {s : String} (h₁ : s ≠ "")
    (h₂ : ∀ c ∈ s.toList, c.isAlpha = true ∨ c = '.')
    (h₃ : s ∉ ["NOT", "true", "false", "NULL", "null", "nil", "YES", "NO"]) :
    ReadableRightKey s := by
  have h₄ : ∀ d : Char, d.isAlpha = false → d ≠ '.' → d ∉ s.toList := fun d hd hp h => by
    simpa [hd, hp] using h₂ d h
  have h₅ : ∀ word, ¬ startsWithComma word s := by
    rintro word ⟨t, ht⟩
    exact h₄ ',' (by decide) (by decide) (by simp [← ht])
  have h₆ : ∀ c ∈ s.toList.head?, c.isAlpha = true ∨ c = '.' :=
    fun c hc => h₂ c (List.mem_of_mem_head? hc)
  refine ⟨⟨⟨by simpa using h₁, fun c hc => ?_, fun c hc => ?_⟩, ?_, ⟨?_, h₅ _⟩, fun h => ?_⟩,
    fun c hc => ?_, fun word hw => ⟨?_, h₅ _⟩⟩
  · rcases h₆ c hc with h | rfl
    · exact isDigit_eq_false_of_isAlpha h
    · rfl
  · rcases h₂ c hc with h | rfl
    · exact isBreak_eq_false (p := Char.isAlpha) (by decide) h
    · rfl
  · rintro ⟨t, ht⟩
    exact h₄ '[' (by decide) (by decide) (by simp [← ht])
  · rintro rfl
    exact h₃ (by simp)
  · exact absurd (h₆ '%' h) (by decide)
  · have h₇ := h₆ c hc
    refine ⟨?_, ?_, ?_, ?_⟩ <;> rintro rfl <;> exact absurd h₇ (by decide)
  · rintro rfl
    exact h₃ (List.mem_cons_of_mem _ hw)

/-- Words of letters are readable on both sides, but for those that mean something. -/
theorem ReadableRightKey.of_letters {s : String} (h₁ : s ≠ "")
    (h₂ : ∀ c ∈ s.toList, c.isAlpha = true)
    (h₃ : s ∉ ["NOT", "true", "false", "NULL", "null", "nil", "YES", "NO"]) :
    ReadableRightKey s :=
  .of_lettersAndDots h₁ (fun c hc => .inl (h₂ c hc)) h₃

theorem ReadableKey.leftName {s : String} (h : ReadableKey s) : LeftName s := by
  refine ⟨⟨h.toIsName, stripKeyword?_eq_none h.noBreak h.notNegation, ?_⟩, ?_⟩
  · cases h₁ : strip? "SQL[".toList s.toList with
    | none => rfl
    | some u => exact absurd ⟨u, (strip?_eq_some.1 h₁).symm⟩ h.notSql
  · have h₁ := h.notPattern
    unfold isPattern
    split
    · next h₂ =>
      obtain rfl := h₁ (by rw [h₂]; rfl)
      exact absurd h₂ (by simp)
    · rfl

theorem ReadableRightKey.rightName {s : String} (h : ReadableRightKey s) : RightName s := by
  refine ⟨h.toIsName, h.noMark, ?_⟩
  simp only [takeLiteralWord?, List.findSome?_eq_none_iff, Option.map_eq_none_iff]
  intro w hw
  refine stripKeyword?_eq_none h.noBreak (h.notLiteral w.1 ?_)
  revert w
  decide

/-! ## Readable qualifiers -/

/-- An operand that is read back as an equal one: a constant without dates and nested arrays, or a
placeholder. -/
def ReadableOperand : Operand → Prop
  | .constant c => c.isPlain = true
  | .placeholder name => IsName name

/-- The name of a placeholder ends where nothing follows, or raw text that starts with a break. The
closing bracket would be written with a backslash before it, which is none. -/
def EndsVariable (ps : List SqlPart) : Prop :=
  ∀ p ∈ ps.head?, ∃ c cs, p = .raw (.ofList (c :: cs)) ∧ isBreak c = true ∧ c ≠ ']'

/-- Raw SQL that is read back part by part: raw texts that are not empty and not side by side, and
placeholders. -/
inductive ReadableSql : List SqlPart → Prop
  | nil : ReadableSql []
  | raw {sql : String} {ps : List SqlPart} (h₁ : sql ≠ "")
      (h₂ : ∀ p ∈ ps.head?, ∀ s, p ≠ .raw s) (h₃ : ReadableSql ps) : ReadableSql (.raw sql :: ps)
  | placeholder {name : String} {ps : List SqlPart} (h₁ : IsName name) (h₂ : EndsVariable ps)
      (h₃ : ReadableSql ps) : ReadableSql (.placeholder name :: ps)

/-- A qualifier tree that is read back: keys are given by readable texts, operations are known
relations, NOT stands before neither a negation nor a truth value, and compounds have at least two
parts. -/
inductive Readable : Qualifier → Prop
  | always (b : Bool) : Readable (.always b)
  | keyValue {key : String} {r : Relation} {v : Operand} (h₁ : ReadableKey key)
      (h₂ : ReadableOperand v) : Readable (.keyValue (.ofText key) (.known r) v)
  | keyComparison {left right : String} {r : Relation} (h₁ : ReadableKey left)
      (h₂ : ReadableRightKey right) :
      Readable (.keyComparison (.ofText left) (.known r) (.ofText right))
  | sql {parts : List SqlPart} (h : ReadableSql parts) : Readable (.sql parts)
  | not {q : Qualifier} (h₁ : q.takesNot = true) (h₂ : Readable q) : Readable (.not q)
  | compound {c : Connective} {parts : List Qualifier} (h₁ : 2 ≤ parts.length)
      (h₂ : ∀ q ∈ parts, Readable q) : Readable (.compound c parts)

theorem EndsVariable.endsName {ps : List SqlPart} (h : EndsVariable ps) :
    EndsName (SqlPart.chars ps ++ [']']) := by
  cases ps with
  | nil => simp [EndsName, isBreak]
  | cons p ps =>
    obtain ⟨c, cs, rfl, h₁, h₂⟩ := h p rfl
    simp [SqlPart.text, Text.escape, needsEscape_eq_false h₁ h₂, EndsName, h₁]

theorem ReadableSql.legible {ps : List SqlPart} (h : ReadableSql ps) : LegibleSql ps := by
  induction h with
  | nil => exact .nil
  | raw _ _ _ ih => exact .raw ih
  | placeholder h₁ h₂ _ ih => exact .placeholder h₁ h₂.endsName ih

theorem ReadableSql.merge_eq {ps : List SqlPart} (h : ReadableSql ps) : SqlPart.merge ps = ps := by
  induction h with
  | nil => rfl
  | @raw sql ps h₁ h₂ h₃ ih =>
    have h₄ : rawPart sql.toList = [.raw sql] := by simp [rawPart, h₁]
    rw [SqlPart.merge, SqlPart.mergeAfter, List.nil_append, SqlPart.mergeAfter_of_head h₂, h₄, ih]
    rfl
  | @placeholder name ps h₁ h₂ h₃ ih => exact congrArg (SqlPart.placeholder name :: ·) ih

theorem ReadableOperand.legible {v : Operand} (h : ReadableOperand v) : LegibleOperand v := by
  cases v with
  | constant c => exact Constant.isFlat_of_isPlain h
  | placeholder name => exact h

theorem ReadableOperand.isEqual_reread {v : Operand} (h : ReadableOperand v) :
    v.isEqual v.reread = true := by
  cases v with
  | constant c => exact Constant.isEqual_reread h
  | placeholder name => exact Operand.isEqual_self _

theorem Readable.legible {q : Qualifier} (h : Readable q) : Legible q := by
  induction h with
  | always b => exact .always b
  | @keyValue key r v h₁ h₂ => exact .keyValue_ofText h₁.leftName (readable_known r) h₂.legible
  | @keyComparison left right r h₁ h₂ =>
    exact .keyComparison_ofText h₁.leftName (readable_known r) h₂.rightName
  | sql h => exact .sql h.legible
  | not h₁ _ ih => exact .not h₁ ih
  | compound h₁ _ ih => exact .compound h₁ ih

theorem areEqual_rereadEach {qs : List Qualifier} (h : ∀ q ∈ qs, q.isEqual q.reread = true) :
    Qualifier.areEqual qs (Qualifier.rereadEach qs) = true := by
  induction qs with
  | nil => rfl
  | cons q qs ih =>
    rw [Qualifier.rereadEach, Qualifier.areEqual, h q (by simp),
      ih fun p hp => h p (List.mem_cons_of_mem _ hp), Bool.and_self]

theorem Readable.isEqual_reread {q : Qualifier} (h : Readable q) : q.isEqual q.reread = true := by
  induction h with
  | always b => exact Qualifier.isEqual_self _
  | @keyValue key r v h₁ h₂ =>
    rw [Qualifier.reread, Qualifier.rereadOperation_known, Key.ofText_text_ofText]
    simp [Qualifier.isEqual, Key.isEqual_self, h₂.isEqual_reread]
  | @keyComparison left right r h₁ h₂ =>
    rw [Qualifier.reread, Key.ofText_text_ofText, Key.ofText_text_ofText]
    exact Qualifier.isEqual_self _
  | sql h =>
    rw [Qualifier.reread, h.merge_eq]
    exact Qualifier.isEqual_self _
  | not h₁ _ ih => exact ih
  | @compound c parts h₁ _ ih => simp [Qualifier.reread, Qualifier.isEqual, areEqual_rereadEach ih]

/-! ## The round trip -/

/-- A readable qualifier is read back from its written form as an equal one, without an entry in the
log. -/
theorem Readable.exists_parse_text {q : Qualifier} (h : Readable q) :
    ∃ p, Qualifier.parse q.text [] = ⟨some p, []⟩ ∧ p.isEqual q = true ∧ q.isEqual p = true :=
  ⟨q.reread, h.legible.parse_text, by rw [Qualifier.isEqual_comm, h.isEqual_reread],
    h.isEqual_reread⟩

/-- A negation, a nested compound and raw SQL with a bracket in it are read back. -/
theorem exists_parse_text_nested :
    let q : Qualifier := .compound .and
      [.not (.keyValue (.ofText "name") (.known .like) (.constant (.string "O*"))),
        .compound .or [.keyComparison (.ofText "home.city") (.known .equalTo) (.ofText "city"),
          .sql [.raw "tags[", .placeholder "i", .raw " + 1] = 2"]]]
    Readable q ∧
      ∃ p, Qualifier.parse q.text [] = ⟨some p, []⟩ ∧ p.isEqual q = true ∧ q.isEqual p = true := by
  intro q
  have h₁ : ReadableRightKey "name" := .of_letters (by decide) (by decide) (by decide)
  have h₂ : ReadableKey "home.city" := by
    exact ⟨⟨by decide, by decide, by decide⟩, by decide, by decide, by decide⟩
  have h₃ : ReadableRightKey "city" := .of_letters (by decide) (by decide) (by decide)
  have h₄ : ReadableSql [.raw "tags[", .placeholder "i", .raw " + 1] = 2"] := by
    refine .raw (by decide) (by simp) (.placeholder ⟨by decide, by decide, by decide⟩ ?_
      (.raw (by decide) (by simp) .nil))
    intro p hp
    obtain rfl : SqlPart.raw " + 1] = 2" = p := by simpa using hp
    exact ⟨' ', _, rfl, rfl, by decide⟩
  have hq : Readable q := by
    refine .compound (by decide) (List.forall_mem_cons.2 ⟨?_, ?_⟩)
    · exact .not rfl (.keyValue h₁.toReadableKey rfl)
    refine List.forall_mem_cons.2 ⟨.compound (by decide) ?_, by simp⟩
    exact List.forall_mem_cons.2 ⟨.keyComparison h₂ h₃, List.forall_mem_cons.2 ⟨.sql h₄, by simp⟩⟩
  exact ⟨hq, hq.exists_parse_text⟩

end RecordQuery
