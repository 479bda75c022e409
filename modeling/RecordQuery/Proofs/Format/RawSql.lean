import RecordQuery.Proofs.Format.Lexeme
import RecordQuery.Proofs.Qualifier.Reread

/-!
# Written raw SQL is read back

The body of raw SQL is read part by part. Raw texts that stand side by side cannot be told apart, so
they are read as one (`sqlBody_chars`); a placeholder is read if what is written after it ends its
name.

* `legibleSql_sqlBody`: what any body is read as satisfies this.
-/

namespace RecordQuery.Format

/-! ## Raw text -/

theorem takeSqlText_of_endsSqlText {c : Char} (h : endsSqlText c = true) (r : List Char) :
    takeSqlText (c :: r) = ([], c :: r) := by
  cases r <;> simp [takeSqlText, h]

theorem takeSqlText_backslash (c : Char) (r : List Char) :
    takeSqlText (Text.backslash :: c :: r) = consRead c (takeSqlText r) := by
  simp [takeSqlText, endsSqlText, Text.backslash]

theorem takeSqlText_cons {c : Char} (h : SqlPart.needsEscape c = false) (r : List Char) :
    takeSqlText (c :: r) = consRead c (takeSqlText r) := by
  simp only [SqlPart.needsEscape, Bool.or_eq_false_iff, beq_eq_false_iff_ne] at h
  obtain ⟨⟨h₁, h₂⟩, h₃⟩ := h
  cases r <;> simp [takeSqlText, endsSqlText, h₁, h₂, h₃, consRead]

/-- Of the breaks only the closing bracket is written with a backslash before it. -/
theorem needsEscape_eq_false {c : Char} (h₁ : isBreak c = true) (h₂ : c ≠ ']') :
    SqlPart.needsEscape c = false := by
  simp only [SqlPart.needsEscape, Bool.or_eq_false_iff, beq_eq_false_iff_ne]
  refine ⟨⟨?_, h₂⟩, ?_⟩ <;> rintro rfl <;> exact absurd h₁ (by decide)

/-- Written raw text is taken as it was, in front of whatever follows. -/
theorem takeSqlText_escape (raws r : List Char) :
    takeSqlText (Text.escape SqlPart.needsEscape raws ++ r) =
      (raws ++ (takeSqlText r).1, (takeSqlText r).2) := by
  induction raws with
  | nil => rfl
  | cons c raws ih =>
    cases h : SqlPart.needsEscape c with
    | true => simp [Text.escape, h, takeSqlText_backslash, ih, consRead]
    | false => simp [Text.escape, h, takeSqlText_cons h, ih, consRead]

theorem takeSqlText_escape_cons (raws : List Char) {c : Char} (h : endsSqlText c = true)
    (r : List Char) :
    takeSqlText (Text.escape SqlPart.needsEscape raws ++ c :: r) = (raws, c :: r) := by
  rw [takeSqlText_escape, takeSqlText_of_endsSqlText h, List.append_nil]

/-! ## Parts -/

/-- Parts that are read back: raw texts, and placeholders whose name ends where the next part
starts. -/
inductive LegibleSql : List SqlPart → Prop
  | nil : LegibleSql []
  | raw {sql : String} {ps : List SqlPart} (h : LegibleSql ps) : LegibleSql (.raw sql :: ps)
  | placeholder {name : String} {ps : List SqlPart} (h₁ : IsName name)
      (h₂ : EndsName (SqlPart.chars ps ++ [']'])) (h₃ : LegibleSql ps) :
      LegibleSql (.placeholder name :: ps)

/-! ## Bodies -/

theorem sqlBody_end {cs text : List Char} (h : takeSqlText cs = (text, [])) :
    sqlBody cs = ⟨rawPart text, [.error "missing closing ']' after SQL[" []], []⟩ := by
  rw [sqlBody]
  split <;> simp_all

theorem sqlBody_bracket {cs text r : List Char} {c : Char} (h₁ : takeSqlText cs = (text, c :: r))
    (h₂ : c ≠ '$') : sqlBody cs = ⟨rawPart text, [], r⟩ := by
  rw [sqlBody]
  split <;> simp_all

theorem sqlBody_placeholder {cs text r s : List Char} {name : String}
    (h₁ : takeSqlText cs = (text, '$' :: r)) (h₂ : takeName? r = some (name, s)) :
    sqlBody cs = .after (rawPart text ++ [.placeholder name]) [] (sqlBody s) := by
  rw [sqlBody]
  split
  · simp_all
  · next h =>
    rw [h₁] at h
    simp only [Prod.mk.injEq, List.cons.injEq] at h
    obtain ⟨rfl, rfl, rfl⟩ := h
    simp only [if_true]
    split <;> simp_all

theorem sqlBody_dollar {cs text r : List Char} (h₁ : takeSqlText cs = (text, '$' :: r))
    (h₂ : takeName? r = none) :
    sqlBody cs = .after (rawPart text) [.error "could not parse SQL qualifier variable" []]
      (sqlBody r) := by
  rw [sqlBody]
  split
  · simp_all
  · next h =>
    rw [h₁] at h
    simp only [Prod.mk.injEq, List.cons.injEq] at h
    obtain ⟨rfl, rfl, rfl⟩ := h
    simp only [if_true]
    split <;> simp_all

/-- Written parts after raw text that is already there: raw texts are joined to it, and a
placeholder ends it. -/
theorem sqlBody_append {ps : List SqlPart} (h : LegibleSql ps) (raws r : List Char) :
    sqlBody (Text.escape SqlPart.needsEscape raws ++ (SqlPart.chars ps ++ ']' :: r)) =
      ⟨SqlPart.mergeAfter raws ps, [], r⟩ := by
  -- Raw text of two parts side by side is read in one piece, so the text in front is not fixed.
  induction h generalizing raws with
  | nil => exact sqlBody_bracket (takeSqlText_escape_cons raws rfl r) (by decide)
  | @raw sql ps h ih =>
    have h₁ := ih (raws ++ sql.toList)
    rw [SqlPart.escape_append] at h₁
    simpa [SqlPart.text, SqlPart.mergeAfter] using h₁
  | @placeholder name ps hn he h ih =>
    have h₁ : EndsName (SqlPart.chars ps ++ ']' :: r) := by
      cases hp : SqlPart.chars ps <;> simp_all [EndsName]
    have h₂ : SqlPart.chars (.placeholder name :: ps) ++ ']' :: r =
        '$' :: (name.toList ++ (SqlPart.chars ps ++ ']' :: r)) := by
      simp [SqlPart.text]
    have h₃ := ih []
    simp only [Text.escape, List.nil_append] at h₃
    rw [h₂, sqlBody_placeholder (takeSqlText_escape_cons raws rfl _) (takeName?_append hn h₁), h₃]
    simp [SqlBody.after, SqlPart.mergeAfter]

theorem sqlBody_chars {ps : List SqlPart} (h : LegibleSql ps) (r : List Char) :
    sqlBody (SqlPart.chars ps ++ ']' :: r) = ⟨SqlPart.merge ps, [], r⟩ :=
  sqlBody_append h [] r

/-! ## Parts that were read -/

theorem exists_parts_sqlBody (cs : List Char) :
    ∃ ps, (sqlBody cs).parts = rawPart (takeSqlText cs).1 ++ ps := by
  match h : takeSqlText cs with
  | (text, []) => exact ⟨[], by simp [sqlBody_end h]⟩
  | (text, c :: r) =>
    by_cases hc : c = '$'
    · subst hc
      match h₁ : takeName? r with
      | none => exact ⟨_, by rw [sqlBody_dollar h h₁]; rfl⟩
      | some (name, s) =>
        exact ⟨_, by rw [sqlBody_placeholder h h₁, SqlBody.after, List.append_assoc]⟩
    · exact ⟨[], by simp [sqlBody_bracket h hc]⟩

/-- What is left after the name of a placeholder still ends the name when it is written. -/
theorem endsName_chars_sqlBody {r : List Char} (h : EndsName r) :
    EndsName (SqlPart.chars (sqlBody r).parts ++ [']']) := by
  cases r with
  | nil => simp [sqlBody_end (show takeSqlText [] = ([], []) from rfl), rawPart, EndsName, isBreak]
  | cons c r =>
    have hc : isBreak c = true := h c rfl
    by_cases h₁ : c = ']'
    · subst h₁
      rw [sqlBody_bracket (takeSqlText_of_endsSqlText rfl r) (by decide)]
      simp [rawPart, EndsName, isBreak]
    · have h₂ := needsEscape_eq_false hc h₁
      obtain ⟨ps, h₃⟩ := exists_parts_sqlBody (c :: r)
      rw [takeSqlText_cons h₂] at h₃
      rw [h₃, SqlPart.chars_append, SqlPart.chars_rawPart]
      simp [consRead, Text.escape, h₂, EndsName, hc]

theorem legibleSql_rawPart_append (text : List Char) {ps : List SqlPart} (h : LegibleSql ps) :
    LegibleSql (rawPart text ++ ps) := by
  cases text with
  | nil => exact h
  | cons c text => exact .raw h

theorem legibleSql_sqlBody (cs : List Char) : LegibleSql (sqlBody cs).parts := by
  fun_induction sqlBody cs with
  | case1 cs text h => simpa using legibleSql_rawPart_append text .nil
  | case2 cs text r name s h₁ h ih =>
    obtain ⟨h₂, h₃, -⟩ := eq_of_takeName? h₁
    simp only [SqlBody.after, List.append_assoc]
    exact legibleSql_rawPart_append text (.placeholder h₂ (endsName_chars_sqlBody h₃) ih)
  | case3 cs text r h₁ h ih => exact legibleSql_rawPart_append text ih
  | case4 cs text c r h hc => simpa using legibleSql_rawPart_append text .nil

theorem merge_rawPart_append (text : List Char) (ps : List SqlPart) :
    SqlPart.merge (rawPart text ++ ps) = SqlPart.mergeAfter text ps := by
  cases text with
  | nil => rfl
  | cons c text => simp [rawPart, SqlPart.merge, SqlPart.mergeAfter]

/-- Raw texts are read in one piece, unless something between them was dropped. -/
theorem merge_sqlBody {cs : List Char} (h : (sqlBody cs).log = []) :
    SqlPart.merge (sqlBody cs).parts = (sqlBody cs).parts := by
  fun_induction sqlBody cs with
  | case1 cs text _ => contradiction
  | case2 cs text r name s _ _ ih =>
    have h₁ := ih h
    simp only [SqlBody.after, List.append_assoc, List.singleton_append, merge_rawPart_append]
    rw [SqlPart.mergeAfter, ← SqlPart.merge, h₁]
    simp
  | case3 cs text r _ _ ih => contradiction
  | case4 cs text c r _ hc =>
    have h₁ := merge_rawPart_append text []
    rwa [List.append_nil] at h₁

theorem rawSql_chars {ps : List SqlPart} (h : LegibleSql ps) (rest : List Char)
    (args : List Value) :
    rawSql ⟨SqlPart.chars ps ++ ']' :: rest, args⟩ =
      .ok (Qualifier.sql ps).reread ⟨rest, args⟩ := by
  simp [rawSql, sqlBody_chars h, Qualifier.reread, Cursor.at]

end RecordQuery.Format
