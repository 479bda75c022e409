import Mathlib.Data.List.DropRight
import RecordQuery.Proofs.Format.Stops

/-!
# Failures are reported

A parser that gives nothing has logged an error (`Step.Reports`). Most parsers fail by logging, or
fail where another one failed before them. Two ends are quiet: a single qualifier that is asked for
where only spaces are left, and a loop that has no steps left. Neither is reached, because the spaces
are skipped and looked behind before a qualifier is asked for, and because every step of a loop takes
a character (`reports_oneQualifier_row`). So a text without a qualifier is blank or has an error:
`blank_or_errors_of_parse`.
-/

namespace RecordQuery.Format

variable {α β : Type}

/-! ## Generic rules -/

/-- If the step fails, it has logged an error. -/
def Step.Reports (s : Step α) : Prop :=
  s.result = none → LogEntry.errors s.log ≠ []

theorem reports_ok (a : α) (c : Cursor) : (Step.ok a c).Reports :=
  fun h => by contradiction

theorem reports_fail (message : String) : (Step.fail message : Step α).Reports :=
  fun _ => errors_error_append_ne_nil message [] []

theorem Step.Reports.after {s : Step α} (h : s.Reports) (entries : List LogEntry) :
    (s.after entries).Reports := by
  intro hr
  rw [Step.log_after, LogEntry.errors_append]
  exact List.append_ne_nil_of_right_ne_nil _ (h hr)

theorem Step.Reports.bind {s : Step α} {f : α → Cursor → Step β} (h : s.Reports)
    (hf : ∀ a c, s.result = some (a, c) → (f a c).Reports) : (s.bind f).Reports := by
  cases hs : s.result with
  | none =>
    intro _
    simpa [Step.bind, hs] using h hs
  | some p =>
    rw [Step.bind_of_result hs]
    exact (hf p.1 p.2 hs).after s.log

theorem Step.Reports.map {s : Step α} (h : s.Reports) (f : α → β) : (s.map f).Reports :=
  fun hr => h (Option.map_eq_none_iff.1 hr)

/-! ## Literals -/

theorem reports_quotedText (q : Char) (c : Cursor) : (quotedText q c).Reports := by
  unfold quotedText
  split
  · exact reports_ok _ _
  · exact reports_fail _
  · exact reports_fail _

theorem reports_numeral (first : Char) (c : Cursor) : (numeral first c).Reports := by
  simp only [numeral]
  split
  · exact reports_ok _ _
  · exact reports_fail _

theorem reports_literal (size : Nat) (c : Cursor) : (literal size c).Reports := by
  unfold literal
  split
  · exact reports_fail _
  · split
    · exact reports_quotedText _ _
    · split
      · exact reports_numeral _ _
      · split
        · exact reports_ok _ _
        · exact reports_fail _

theorem reports_castClass (c : Cursor) : (castClass c).Reports := by
  unfold castClass
  split
  · exact reports_fail _
  · split
    · exact reports_ok _ _
    · exact reports_fail _

theorem reports_constant (size : Nat) (c : Cursor) : (constant size c).Reports := by
  unfold constant
  split
  · exact reports_literal size c
  · refine (reports_castClass _).bind fun name d _ => ?_
    simp only
    split
    · exact reports_fail _
    · exact (reports_literal size _).bind fun v e _ => (reports_ok v e).after _

/-- Every element takes a comma with it, so that the steps last as long as the characters do. -/
theorem reports_listItems (size : Nat) {n : Nat} {c : Cursor} (hn : c.rest.length < n) :
    (listItems size n c).Reports := by
  induction n generalizing c with
  | zero => omega
  | succ n ih =>
    simp only [listItems]
    split
    · exact reports_fail _
    · refine (reports_literal size _).bind fun v d hd => ?_
      split
      · next r h =>
        have h₁ := (proceeds_literal size _ v d hd).rest.length_le
        have h₂ := length_skipSpaces_le c.rest
        have h₃ := length_skipSpaces_le d.rest
        have h₄ : skipSpaces d.rest = ',' :: r := h
        rw [h₄, List.length_cons] at h₃
        apply Step.Reports.map
        apply ih
        show r.length < n
        simp only [Cursor.at] at h₁
        omega
      · exact reports_ok _ _
      · exact reports_fail _

theorem reports_valueList (size : Nat) (c : Cursor) : (valueList size c).Reports := by
  simp only [valueList]
  split
  · exact reports_ok _ _
  · exact (reports_listItems size (Nat.lt_succ_self _)).map _

theorem reports_constantOrList (size : Nat) (op : Operation) (c : Cursor) :
    (constantOrList size op c).Reports := by
  unfold constantOrList
  split
  · split
    · exact reports_valueList size _
    · exact reports_constant size c
  · exact reports_constant size c

/-! ## Clauses -/

theorem reports_resolve (word : String) (c : Cursor) : (resolve word c).Reports := by
  unfold resolve
  split
  · split
    · exact reports_fail _
    · split
      · split
        · exact reports_ok _ _
        · split
          · exact reports_fail _
          · exact reports_fail _
      · exact reports_fail _
  · exact reports_ok _ _

theorem reports_argumentComparison (key : String) (op : Operation) (specifier : Char) (v : Value)
    (c : Cursor) : (argumentComparison key op specifier v c).Reports := by
  unfold argumentComparison
  repeat' split
  all_goals first | exact reports_ok _ _ | exact reports_fail _

theorem reports_argumentValue (key : String) (op : Operation) (c : Cursor) :
    (argumentValue key op c).Reports := by
  unfold argumentValue
  split
  · exact reports_fail _
  · split
    · exact reports_fail _
    · exact reports_argumentComparison _ _ _ _ _

theorem reports_operand (size : Nat) (key token : String) (c : Cursor) :
    (operand size key token c).Reports := by
  simp only [operand]
  split
  · exact reports_fail _
  · split
    · exact reports_ok _ _
    · exact reports_fail _
  · exact reports_argumentValue _ _ _
  · split
    · exact (reports_constantOrList size _ _).map _
    · split
      · exact reports_ok _ _
      · exact reports_fail _

theorem reports_afterOperation (size : Nat) (key token : String) (c : Cursor) :
    (afterOperation size key token c).Reports := by
  unfold afterOperation
  split
  · exact reports_ok _ _
  · exact reports_operand size key token c

theorem reports_afterKey (size : Nat) (key : String) (c : Cursor) :
    (afterKey size key c).Reports := by
  simp only [afterKey]
  split
  · exact reports_ok _ _
  · split
    · exact reports_ok _ _
    · exact (reports_resolve _ _).bind fun token d _ => reports_afterOperation size key token d

theorem reports_clause (size : Nat) (c : Cursor) : (clause size c).Reports := by
  unfold clause
  split
  · exact reports_fail _
  · exact (reports_resolve _ _).bind fun key d _ => reports_afterKey size key d

/-! ## Rows -/

theorem reports_rawSql (c : Cursor) : (rawSql c).Reports :=
  (reports_ok _ _).after _

theorem reports_closeParenthesis (q : Qualifier) (c : Cursor) : (closeParenthesis q c).Reports := by
  simp only [closeParenthesis]
  split
  · exact reports_ok _ _
  · exact (reports_ok _ _).after _

/-- Qualifiers that are there give a compound, unless an unknown word joins several of them. -/
theorem errors_buildCompound {word : String} {qs : List Qualifier} (hq : qs ≠ [])
    (h : (buildCompound word qs).value = none) :
    LogEntry.errors (buildCompound word qs).log ≠ [] := by
  match qs with
  | [] => contradiction
  | [q] => contradiction
  | q :: p :: ps =>
    simp only [buildCompound] at h ⊢
    split at h
    · contradiction
    · next h₁ =>
      split at h
      · contradiction
      · next h₂ =>
        rw [if_neg h₁, if_neg h₂]
        exact errors_error_append_ne_nil _ [] []

theorem reports_endCompound (last : Option String) {qs : List Qualifier} (hq : qs ≠ [])
    (c : Cursor) : (endCompound last qs c).Reports :=
  fun h => errors_buildCompound hq (Option.map_eq_none_iff.1 h)

/-- Something other than spaces is left. -/
def Cursor.HasMore (c : Cursor) : Prop :=
  skipSpaces c.rest ≠ []

theorem skipSpaces_skipSpaces (cs : List Char) : skipSpaces (skipSpaces cs) = skipSpaces cs :=
  List.dropWhile_idempotent isSpace cs

theorem hasMore_skipSpaces {c : Cursor} {r : List Char} (h : ¬ (skipSpaces r).isEmpty = true) :
    (c.at (skipSpaces r)).HasMore := by
  show skipSpaces (skipSpaces r) ≠ []
  rw [skipSpaces_skipSpaces]
  exact fun h' => h (List.isEmpty_iff.2 h')

variable {c : Cursor}

/-- One step of a single qualifier, from the steps that it goes on with. -/
theorem reports_oneQualifier_succ {size n : Nat}
    (h₁ : ∀ c : Cursor, c.HasMore → 2 * c.rest.length ≤ n → (oneQualifier size n c).Reports)
    (h₂ : ∀ c : Cursor, c.HasMore → 2 * c.rest.length + 1 ≤ n →
      (row size n none [] c).Reports)
    (hc : c.HasMore) (hn : 2 * c.rest.length ≤ n + 1) : (oneQualifier size (n + 1) c).Reports := by
  have h₃ := length_skipSpaces_le c.rest
  simp only [oneQualifier]
  split
  · next h => exact absurd (List.isEmpty_iff.1 h) hc
  · split
    -- a parenthesis
    · next r h =>
      split
      · exact reports_fail _
      · next h₄ =>
        have h₅ := congrArg List.length (strip?_eq_some.1 h)
        have h₆ := length_skipSpaces_le r
        refine Step.Reports.bind (h₂ _ (hasMore_skipSpaces h₄) ?_)
          fun q d _ => reports_closeParenthesis q d
        simp only [Cursor.at, List.length_append, List.length_singleton] at h₅ ⊢
        omega
    · split
      -- a negation
      · next r h =>
        split
        · exact reports_fail _
        · next h₄ =>
          have h₅ : (skipSpaces c.rest).length = 3 + r.length := length_of_stripKeyword? h
          have h₆ := length_skipSpaces_le r
          refine Step.Reports.map (h₁ _ (hasMore_skipSpaces h₄) ?_) _
          simp only [Cursor.at]
          omega
      · split
        · exact reports_rawSql _
        · split
          · exact reports_ok _ _
          · split
            · exact reports_ok _ _
            · exact reports_clause size _

theorem reports_row_succ {size n : Nat}
    (h₁ : ∀ c : Cursor, c.HasMore → 2 * c.rest.length ≤ n → (oneQualifier size n c).Reports)
    (h₂ : ∀ (last : Option String) (qs : List Qualifier) (c : Cursor), c.HasMore →
      2 * c.rest.length + 1 ≤ n → (row size n last qs c).Reports)
    (last : Option String) (qs : List Qualifier) (hc : c.HasMore)
    (hn : 2 * c.rest.length + 1 ≤ n + 1) : (row size (n + 1) last qs c).Reports := by
  simp only [row]
  refine Step.Reports.bind (h₁ c hc (by omega)) fun q d hd => ?_
  have hq : qs ++ [q] ≠ [] := by simp
  split
  · exact reports_endCompound _ hq _
  · split
    · exact (reports_endCompound _ hq _).after _
    · next word r h =>
      refine Step.Reports.bind (reports_resolve _ _) fun token e he => ?_
      split
      · exact (reports_endCompound _ hq _).after _
      · next h₃ =>
        -- The connective is what the row is shorter by when it goes on.
        have h₄ := ((proceeds_oneQualifier_row size n).1 c q d hd).rest.length_le
        have h₅ := length_skipSpaces_le d.rest
        have h₆ := length_takeName? h
        have h₇ := (proceeds_resolve _ _ token e he).rest.length_le
        have h₈ := length_skipSpaces_le e.rest
        refine Step.Reports.after (h₂ _ _ _ (hasMore_skipSpaces h₃) ?_) _
        simp only [Cursor.at] at h₆ h₇ ⊢
        omega

/-- Reading a qualifier or a row reports its failure, if something is left to read and there are
steps enough for it. -/
theorem reports_oneQualifier_row (size n : Nat) :
    (∀ c : Cursor, c.HasMore → 2 * c.rest.length ≤ n → (oneQualifier size n c).Reports) ∧
      ∀ (last : Option String) (qs : List Qualifier) (c : Cursor), c.HasMore →
        2 * c.rest.length + 1 ≤ n → (row size n last qs c).Reports := by
  -- The two functions call each other with one step less, wherever the cursor then stands.
  induction n with
  | zero =>
    refine ⟨fun c hc hn => ?_, fun last qs c _ hn => by omega⟩
    have h : c.rest = [] := List.length_eq_zero_iff.1 (by omega)
    exact absurd (by rw [h]; rfl) hc
  | succ n ih =>
    obtain ⟨h₁, h₂⟩ := ih
    exact ⟨fun c => reports_oneQualifier_succ h₁ (h₂ none []),
      fun last qs c => reports_row_succ h₁ h₂ last qs⟩

end RecordQuery.Format

namespace RecordQuery

open Format

/-- A text that gives no qualifier is blank, and then nothing is logged, or an error is logged. -/
theorem blank_or_errors_of_parse {format : String} {args : List Value}
    (h : (Qualifier.parse format args).value = none) :
    ((∀ c ∈ format.toList, c = ' ' ∨ c = '\t' ∨ c = '\n' ∨ c = '\r') ∧
        (Qualifier.parse format args).log = []) ∨
      LogEntry.errors (Qualifier.parse format args).log ≠ [] := by
  by_cases hb : (skipSpaces format.toList).isEmpty = true
  · left
    refine ⟨fun c hc => isSpace_eq_true.1 ?_, by simp [Qualifier.parse, Format.read, hb]⟩
    exact List.dropWhile_eq_nil_iff.1 (List.isEmpty_iff.1 hb) c hc
  · right
    have h₁ := (reports_oneQualifier_row (Text.unitCount format.toList)
      (stepBound format.toList)).2 none [] ⟨skipSpaces format.toList, args⟩
      (hasMore_skipSpaces (c := ⟨[], args⟩) hb) ?_
    · rw [Qualifier.parse, Format.read, if_neg hb] at h ⊢
      exact h₁ (Option.map_eq_none_iff.1 h)
    · have h₂ := length_skipSpaces_le format.toList
      simp only [stepBound]
      omega

/-- A pattern without an argument, in a parenthesis that is never closed. -/
theorem blank_or_errors_of_parse_open :
    (Qualifier.parse "NOT (a = %d" []).value = none ∧
      LogEntry.errors (Qualifier.parse "NOT (a = %d" []).log ≠ [] := by
  have h : (Qualifier.parse "NOT (a = %d" []).value = none := by rfl
  refine ⟨h, (blank_or_errors_of_parse h).resolve_left fun hb => ?_⟩
  exact absurd (hb.1 'N' (by decide)) (by decide)

end RecordQuery
