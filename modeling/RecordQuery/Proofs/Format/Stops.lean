import RecordQuery.Proofs.Format.Legible

/-!
# Where a parse stops

The parser only goes forward: after every step that succeeds, what is left is the end of what was
left before, of the text as of the arguments (`proceeds_oneQualifier_row`). It stops without an
error at the end of the text or before a closing parenthesis, and nowhere else
(`endsRow_of_row`). Nothing but a parenthesis without an opening one hides the rest of a text, but
it does so without a complaint: `exists_stop_of_parse`.
-/

namespace RecordQuery.Format

variable {α β : Type}

/-! ## Generic rules -/

/-- What is left at the second cursor is the end of what is left at the first one. -/
structure Cursor.Reaches (c d : Cursor) : Prop where
  rest : d.rest <:+ c.rest
  args : d.args <:+ c.args

theorem Cursor.Reaches.refl (c : Cursor) : c.Reaches c :=
  ⟨List.suffix_rfl, List.suffix_rfl⟩

theorem Cursor.Reaches.trans {c d e : Cursor} (h₁ : c.Reaches d) (h₂ : d.Reaches e) : c.Reaches e :=
  ⟨h₂.rest.trans h₁.rest, h₂.args.trans h₁.args⟩

theorem Cursor.reaches_at {c : Cursor} {r : List Char} (h : r <:+ c.rest) : c.Reaches (c.at r) :=
  ⟨h, List.suffix_rfl⟩

/-- If a step succeeds, it goes forward from the cursor. -/
def Step.Proceeds (c : Cursor) (s : Step α) : Prop :=
  ∀ a d, s.result = some (a, d) → c.Reaches d

variable {c d : Cursor}

theorem Step.Proceeds.of_reaches {s : Step α} (h : s.Proceeds d) (hc : c.Reaches d) :
    s.Proceeds c :=
  fun a e he => hc.trans (h a e he)

theorem proceeds_ok {a : α} (h : c.Reaches d) : (Step.ok a d).Proceeds c := by
  intro b e he
  obtain ⟨-, rfl⟩ := Prod.mk.inj (Option.some.inj he)
  exact h

theorem proceeds_stop : (Step.stop : Step α).Proceeds c :=
  fun _ _ h => by contradiction

theorem proceeds_fail (message : String) : (Step.fail message : Step α).Proceeds c :=
  fun _ _ h => by contradiction

theorem Step.Proceeds.after {s : Step α} (h : s.Proceeds c) (entries : List LogEntry) :
    (s.after entries).Proceeds c :=
  h

theorem Step.Proceeds.bind {s : Step α} {f : α → Cursor → Step β} (h : s.Proceeds c)
    (hf : ∀ a d, s.result = some (a, d) → (f a d).Proceeds d) : (s.bind f).Proceeds c := by
  intro b e he
  obtain ⟨a, d, h₁, h₂⟩ := Step.result_bind_eq_some.1 he
  exact (h a d h₁).trans (hf a d h₁ b e h₂)

theorem Step.Proceeds.map {s : Step α} (h : s.Proceeds c) (f : α → β) : (s.map f).Proceeds c := by
  intro b e he
  obtain ⟨⟨a, d⟩, h₁, h₂⟩ := Option.map_eq_some_iff.1 he
  obtain ⟨-, rfl⟩ := Prod.mk.inj h₂
  exact h a d h₁

/-! ## Lexemes -/

theorem suffix_of_eq_cons {cs r : List Char} {d : Char} (h : cs = d :: r) : r <:+ cs := by
  rw [h]
  exact List.suffix_cons d r

theorem skipSpaces_suffix (cs : List Char) : skipSpaces cs <:+ cs :=
  List.dropWhile_suffix _

theorem strip?_suffix {ts cs r : List Char} (h : strip? ts cs = some r) : r <:+ cs :=
  ⟨ts, (strip?_eq_some.1 h).symm⟩

theorem stripKeyword?_suffix {keyword : String} {cs r : List Char}
    (h : stripKeyword? keyword cs = some r) : r <:+ cs :=
  strip?_suffix (Option.filter_eq_some_iff.1 h).1

theorem takeName?_suffix {cs r : List Char} {name : String} (h : takeName? cs = some (name, r)) :
    r <:+ cs :=
  ⟨name.toList, (takeName?_eq_some h).1.symm⟩

theorem takeWord?_suffix {cs r : List Char} {word : String} (h : takeWord? cs = some (word, r)) :
    r <:+ cs := by
  unfold takeWord? at h
  split at h
  · contradiction
  · split at h
    · contradiction
    · obtain ⟨-, rfl⟩ := Prod.mk.inj (Option.some.inj h)
      exact List.dropWhile_suffix _

theorem takeOperation?_suffix {cs r : List Char} {word : String}
    (h : takeOperation? cs = some (word, r)) : r <:+ cs := by
  unfold takeOperation? at h
  split at h
  · contradiction
  · split at h
    -- The last case is the one of words; the others take one or two characters.
    case h_11 => exact takeWord?_suffix h
    all_goals
      obtain ⟨-, rfl⟩ := Prod.mk.inj (Option.some.inj h)
      simp [List.suffix_cons_iff]

theorem takeLiteralWord?_suffix {cs r : List Char} {v : Value}
    (h : takeLiteralWord? cs = some (v, r)) : r <:+ cs := by
  obtain ⟨w, -, h₁⟩ := List.exists_of_findSome?_eq_some h
  obtain ⟨s, h₂, h₃⟩ := Option.map_eq_some_iff.1 h₁
  obtain ⟨-, rfl⟩ := Prod.mk.inj h₃
  exact stripKeyword?_suffix h₂

theorem ok_of_map_consRead {x : Except QuoteFault (List Char × List Char)} {c : Char}
    {text r : List Char} (h : x.map (consRead c) = .ok (text, r)) : ∃ t, x = .ok (t, r) := by
  cases x with
  | error e => contradiction
  | ok p =>
    obtain ⟨-, rfl⟩ := Prod.mk.inj (Except.ok.inj h)
    exact ⟨p.1, rfl⟩

theorem quotedBody_suffix {q : Char} {cs r text : List Char}
    (h : quotedBody q cs = .ok (text, r)) : r <:+ cs := by
  fun_induction quotedBody q cs generalizing text with
  | case1 => contradiction
  | case2 =>
    obtain ⟨-, rfl⟩ := Prod.mk.inj (Except.ok.inj h)
    exact List.nil_suffix
  | case3 => contradiction
  | case4 => contradiction
  | case5 d cs =>
    obtain ⟨-, rfl⟩ := Prod.mk.inj (Except.ok.inj h)
    exact List.suffix_cons _ _
  | case6 d cs _ ih =>
    obtain ⟨t, h₁⟩ := ok_of_map_consRead h
    exact ((ih h₁).trans (List.suffix_cons _ _)).trans (List.suffix_cons _ _)
  | case7 c d cs _ _ ih =>
    obtain ⟨t, h₁⟩ := ok_of_map_consRead h
    exact (ih h₁).trans (List.suffix_cons _ _)

theorem numeralTail_suffix (before : Char) (cs : List Char) : (numeralTail before cs).2 <:+ cs := by
  induction cs generalizing before with
  | nil => exact List.suffix_rfl
  | cons c cs ih =>
    rw [numeralTail]
    split
    · exact List.suffix_rfl
    · exact (ih c).trans (List.suffix_cons _ _)

theorem takeSqlText_suffix (cs : List Char) : (takeSqlText cs).2 <:+ cs := by
  fun_induction takeSqlText cs with
  | case1 => exact List.suffix_rfl
  | case2 => exact List.suffix_rfl
  | case3 => exact List.nil_suffix
  | case4 => exact List.suffix_rfl
  | case5 d cs _ ih => exact (ih.trans (List.suffix_cons _ _)).trans (List.suffix_cons _ _)
  | case6 c d cs _ _ ih => exact ih.trans (List.suffix_cons _ _)

theorem sqlBody_suffix (cs : List Char) : (sqlBody cs).rest <:+ cs := by
  have suffix : ∀ {cs text r : List Char} {c : Char}, takeSqlText cs = (text, c :: r) → r <:+ cs :=
    fun {cs text r c} h => by
      have h₁ := takeSqlText_suffix cs
      rw [h] at h₁
      exact (List.suffix_cons c r).trans h₁
  fun_induction sqlBody cs with
  | case1 => exact List.nil_suffix
  | case2 cs text r name s h₁ h₂ ih => exact (ih.trans (takeName?_suffix h₁)).trans (suffix h₂)
  | case3 cs text r _ h ih => exact ih.trans (suffix h)
  | case4 cs text c r h _ => exact suffix h

/-! ## Literals -/

theorem proceeds_quotedText (q : Char) (c : Cursor) : (quotedText q c).Proceeds c := by
  unfold quotedText
  split
  · next h => exact proceeds_ok (Cursor.reaches_at (quotedBody_suffix h))
  · exact proceeds_fail _
  · exact proceeds_fail _

theorem proceeds_numeral (first : Char) (c : Cursor) : (numeral first c).Proceeds c := by
  simp only [numeral]
  split
  · exact proceeds_ok (Cursor.reaches_at (numeralTail_suffix _ _))
  · exact proceeds_fail _

theorem proceeds_literal (size : Nat) (c : Cursor) : (literal size c).Proceeds c := by
  unfold literal
  split
  · exact proceeds_fail _
  · next d r h =>
    have h₁ : c.Reaches (c.at r) := Cursor.reaches_at (suffix_of_eq_cons h)
    split
    · exact (proceeds_quotedText _ _).of_reaches h₁
    · split
      · exact (proceeds_numeral _ _).of_reaches h₁
      · split
        · next h₂ =>
          rw [← h] at h₂
          exact proceeds_ok (Cursor.reaches_at (takeLiteralWord?_suffix h₂))
        · exact proceeds_fail _

theorem proceeds_castClass (c : Cursor) : (castClass c).Proceeds c := by
  unfold castClass
  split
  · exact proceeds_fail _
  · next h =>
    split
    · next h₁ =>
      refine proceeds_ok (Cursor.reaches_at ?_)
      exact (((strip?_suffix h₁).trans (skipSpaces_suffix _)).trans (takeName?_suffix h)).trans
        (skipSpaces_suffix _)
    · exact proceeds_fail _

theorem reaches_skipSpaces (c : Cursor) : c.Reaches (c.at (skipSpaces c.rest)) :=
  Cursor.reaches_at (skipSpaces_suffix _)

theorem proceeds_constant (size : Nat) (c : Cursor) : (constant size c).Proceeds c := by
  unfold constant
  split
  · exact proceeds_literal size c
  · next r h =>
    refine Step.Proceeds.bind ?_ fun name d _ => ?_
    · exact (proceeds_castClass _).of_reaches (Cursor.reaches_at (strip?_suffix h))
    · simp only
      split
      · exact proceeds_fail _
      · refine Step.Proceeds.of_reaches ?_ (reaches_skipSpaces d)
        exact (proceeds_literal size _).bind fun v e _ => (proceeds_ok (.refl e)).after _

theorem proceeds_listItems (size n : Nat) (c : Cursor) : (listItems size n c).Proceeds c := by
  induction n generalizing c with
  | zero => exact proceeds_stop
  | succ n ih =>
    simp only [listItems]
    split
    · exact proceeds_fail _
    · refine Step.Proceeds.of_reaches ?_ (reaches_skipSpaces c)
      refine (proceeds_literal size _).bind fun v d _ => ?_
      refine Step.Proceeds.of_reaches (d := d.at (skipSpaces d.rest)) ?_ (reaches_skipSpaces d)
      split
      · next r h =>
        exact ((ih _).of_reaches (Cursor.reaches_at (suffix_of_eq_cons h))).map _
      · next r h =>
        exact proceeds_ok (Cursor.reaches_at (suffix_of_eq_cons h))
      · exact proceeds_fail _

theorem proceeds_valueList (size : Nat) (c : Cursor) : (valueList size c).Proceeds c := by
  simp only [valueList]
  refine Step.Proceeds.of_reaches ?_ (reaches_skipSpaces c)
  split
  · next h => exact proceeds_ok (Cursor.reaches_at (strip?_suffix h))
  · exact (proceeds_listItems size _ _).map _

theorem proceeds_constantOrList (size : Nat) (op : Operation) (c : Cursor) :
    (constantOrList size op c).Proceeds c := by
  unfold constantOrList
  split
  · next h =>
    split
    · exact (proceeds_valueList size _).of_reaches (Cursor.reaches_at (strip?_suffix h))
    · exact proceeds_constant size c
  · exact proceeds_constant size c

/-! ## Clauses -/

theorem Cursor.reaches_args {r : List Char} {v : Value} {args : List Value} (h : r <:+ c.rest)
    (ha : c.args = v :: args) : c.Reaches ⟨r, args⟩ :=
  ⟨h, by rw [ha]; exact List.suffix_cons _ _⟩

theorem proceeds_resolve (word : String) (c : Cursor) : (resolve word c).Proceeds c := by
  unfold resolve
  split
  · split
    · exact proceeds_fail _
    · next h =>
      split
      · split
        · exact proceeds_ok (Cursor.reaches_args List.suffix_rfl h)
        · split
          · exact proceeds_fail _
          · exact proceeds_fail _
      · exact proceeds_fail _
  · exact proceeds_ok (.refl c)

theorem proceeds_argumentComparison (key : String) (op : Operation) (specifier : Char) (v : Value)
    (c : Cursor) : (argumentComparison key op specifier v c).Proceeds c := by
  unfold argumentComparison
  repeat' split
  all_goals first | exact proceeds_fail _ | exact proceeds_ok (.refl c)

theorem proceeds_argumentValue (key : String) (op : Operation) (c : Cursor) :
    (argumentValue key op c).Proceeds c := by
  unfold argumentValue
  split
  · exact proceeds_fail _
  · next h =>
    split
    · exact proceeds_fail _
    · next h₁ =>
      exact (proceeds_argumentComparison _ _ _ _ _).of_reaches
        (Cursor.reaches_args (suffix_of_eq_cons h) h₁)

theorem proceeds_operand (size : Nat) (key token : String) (c : Cursor) :
    (operand size key token c).Proceeds c := by
  simp only [operand]
  refine Step.Proceeds.of_reaches (d := c.at (skipSpaces c.rest)) ?_ (reaches_skipSpaces c)
  split
  · exact proceeds_fail _
  · next r h =>
    split
    · next h₁ =>
      exact proceeds_ok (Cursor.reaches_at ((takeName?_suffix h₁).trans (suffix_of_eq_cons h)))
    · exact proceeds_fail _
  · next r h =>
    exact (proceeds_argumentValue _ _ _).of_reaches (Cursor.reaches_at (suffix_of_eq_cons h))
  · split
    · exact (proceeds_constantOrList size _ _).map _
    · split
      · next h => exact proceeds_ok (Cursor.reaches_at (takeName?_suffix h))
      · exact proceeds_fail _

theorem nullTest?_suffix {cs rest : List Char} {r : Relation} (h : nullTest? cs = some (r, rest)) :
    rest <:+ cs := by
  simp only [nullTest?] at h
  split at h
  · next h₁ =>
    obtain ⟨s, h₂, h₃⟩ := Option.map_eq_some_iff.1 h
    obtain ⟨-, rfl⟩ := Prod.mk.inj h₃
    exact (((stripKeyword?_suffix h₂).trans (skipSpaces_suffix _)).trans
      (stripKeyword?_suffix h₁)).trans (skipSpaces_suffix _)
  · obtain ⟨s, h₂, h₃⟩ := Option.map_eq_some_iff.1 h
    obtain ⟨-, rfl⟩ := Prod.mk.inj h₃
    exact (stripKeyword?_suffix h₂).trans (skipSpaces_suffix _)

theorem proceeds_afterOperation (size : Nat) (key token : String) (c : Cursor) :
    (afterOperation size key token c).Proceeds c := by
  unfold afterOperation
  split
  · next h =>
    split at h
    · exact proceeds_ok (Cursor.reaches_at (nullTest?_suffix h))
    · contradiction
  · exact proceeds_operand size key token c

theorem proceeds_afterKey (size : Nat) (key : String) (c : Cursor) :
    (afterKey size key c).Proceeds c := by
  simp only [afterKey]
  refine Step.Proceeds.of_reaches ?_ (reaches_skipSpaces c)
  split
  · exact proceeds_ok (.refl _)
  · split
    · exact proceeds_ok (.refl _)
    · next h =>
      refine Step.Proceeds.bind ?_ fun token d _ => proceeds_afterOperation size key token d
      exact (proceeds_resolve _ _).of_reaches (Cursor.reaches_at (takeOperation?_suffix h))

theorem proceeds_clause (size : Nat) (c : Cursor) : (clause size c).Proceeds c := by
  unfold clause
  split
  · exact proceeds_fail _
  · next h =>
    refine Step.Proceeds.bind ?_ fun key d _ => proceeds_afterKey size key d
    exact (proceeds_resolve _ _).of_reaches (Cursor.reaches_at (takeName?_suffix h))

/-! ## Rows -/

theorem proceeds_rawSql (c : Cursor) : (rawSql c).Proceeds c :=
  Step.Proceeds.after (proceeds_ok (Cursor.reaches_at (sqlBody_suffix _))) _

theorem proceeds_closeParenthesis (q : Qualifier) (c : Cursor) :
    (closeParenthesis q c).Proceeds c := by
  simp only [closeParenthesis]
  refine Step.Proceeds.of_reaches ?_ (reaches_skipSpaces c)
  split
  · next h => exact proceeds_ok (Cursor.reaches_at (strip?_suffix h))
  · exact (proceeds_ok (.refl _)).after _

theorem endCompound_stays {last : Option String} {qs : List Qualifier} {q : Qualifier}
    (h : (endCompound last qs c).result = some (q, d)) : d = c := by
  obtain ⟨p, -, h₁⟩ := Option.map_eq_some_iff.1 h
  exact (Prod.mk.inj h₁).2.symm

theorem proceeds_endCompound (last : Option String) (qs : List Qualifier) (c : Cursor) :
    (endCompound last qs c).Proceeds c := by
  intro q d h
  rw [endCompound_stays h]
  exact .refl c

/-- One step of a single qualifier, from the steps that it goes on with. -/
theorem proceeds_oneQualifier_succ {size n : Nat}
    (h₁ : ∀ c : Cursor, (oneQualifier size n c).Proceeds c)
    (h₂ : ∀ c : Cursor, (row size n none [] c).Proceeds c) (c : Cursor) :
    (oneQualifier size (n + 1) c).Proceeds c := by
  simp only [oneQualifier]
  refine Step.Proceeds.of_reaches ?_ (reaches_skipSpaces c)
  split
  · exact proceeds_stop
  · split
    -- a parenthesis
    · next h =>
      split
      · exact proceeds_fail _
      · refine Step.Proceeds.bind ?_ fun q d _ => proceeds_closeParenthesis q d
        exact (h₂ _).of_reaches
          (Cursor.reaches_at ((skipSpaces_suffix _).trans (strip?_suffix h)))
    · split
      -- a negation
      · next h =>
        split
        · exact proceeds_fail _
        · refine Step.Proceeds.map ?_ _
          exact (h₁ _).of_reaches
            (Cursor.reaches_at ((skipSpaces_suffix _).trans (stripKeyword?_suffix h)))
      · split
        -- raw SQL
        · next h => exact (proceeds_rawSql _).of_reaches (Cursor.reaches_at (strip?_suffix h))
        · split
          · next h => exact proceeds_ok (Cursor.reaches_at (strip?_suffix h))
          · split
            · next h => exact proceeds_ok (Cursor.reaches_at (strip?_suffix h))
            · exact proceeds_clause size _

theorem proceeds_row_succ {size n : Nat}
    (h₁ : ∀ c : Cursor, (oneQualifier size n c).Proceeds c)
    (h₂ : ∀ (last : Option String) (qs : List Qualifier) (c : Cursor),
      (row size n last qs c).Proceeds c)
    (last : Option String) (qs : List Qualifier) (c : Cursor) :
    (row size (n + 1) last qs c).Proceeds c := by
  simp only [row]
  refine (h₁ c).bind fun q d _ => ?_
  refine Step.Proceeds.of_reaches (d := d.at (skipSpaces d.rest)) ?_ (reaches_skipSpaces d)
  split
  · exact proceeds_endCompound _ _ _
  · split
    · exact (proceeds_endCompound _ _ _).after _
    · next h =>
      refine Step.Proceeds.bind ?_ fun word e _ => ?_
      · exact (proceeds_resolve _ _).of_reaches (Cursor.reaches_at (takeName?_suffix h))
      · refine Step.Proceeds.of_reaches (d := e.at (skipSpaces e.rest)) ?_ (reaches_skipSpaces e)
        split
        · exact (proceeds_endCompound _ _ _).after _
        · exact (h₂ _ _ _).after _

/-- Reading a qualifier or a row goes forward. -/
theorem proceeds_oneQualifier_row (size n : Nat) :
    (∀ c : Cursor, (oneQualifier size n c).Proceeds c) ∧
      ∀ (last : Option String) (qs : List Qualifier) (c : Cursor),
        (row size n last qs c).Proceeds c := by
  -- The two functions call each other with one step less, wherever the cursor then stands.
  induction n with
  | zero => exact ⟨fun c => proceeds_stop, fun last qs c => proceeds_stop⟩
  | succ n ih =>
    obtain ⟨h₁, h₂⟩ := ih
    exact ⟨fun c => proceeds_oneQualifier_succ h₁ (h₂ none []) c, proceeds_row_succ h₁ h₂⟩

/-! ## Quiet ends -/

theorem errors_error_append_ne_nil (message : String) (details : List Value) (es : List LogEntry) :
    LogEntry.errors ([.error message details] ++ es) ≠ [] := by
  simp [LogEntry.errors, LogEntry.error]

theorem endsRow_iff {cs : List Char} : (cs.isEmpty || startsWith ")" cs) = true ↔ EndsRow cs := by
  rw [Bool.or_eq_true, List.isEmpty_iff, startsWith, Option.isSome_iff_exists]
  simp [strip?_eq_some, EndsRow]

/-- A row that is read without an error ends where the text does, or at a closing parenthesis. -/
theorem endsRow_of_row {size n : Nat} {last : Option String} {qs : List Qualifier} {q : Qualifier}
    (h : (row size n last qs c).result = some (q, d))
    (he : LogEntry.errors (row size n last qs c).log = []) : EndsRow d.rest := by
  -- Every end of the loop but the first one logs an error, and the others go on with a step less.
  induction n generalizing last qs c with
  | zero => contradiction
  | succ n ih =>
    simp only [row] at h he
    obtain ⟨p, e, h₁, h₂⟩ := Step.result_bind_eq_some.1 h
    rw [Step.bind_of_result h₁, Step.log_behind, LogEntry.errors_append,
      List.append_eq_nil_iff] at he
    replace he := he.2
    split at h₂
    · next h₃ =>
      obtain rfl := endCompound_stays h₂
      exact endsRow_iff.1 h₃
    · next h₃ =>
      rw [if_neg h₃] at he
      split at h₂
      · next h₄ =>
        simp only [h₄] at he
        exact absurd he (errors_error_append_ne_nil _ _ _)
      · next h₄ =>
        simp only [h₄] at he
        obtain ⟨word, f, h₅, h₆⟩ := Step.result_bind_eq_some.1 h₂
        rw [Step.bind_of_result h₅, Step.log_behind, LogEntry.errors_append,
          List.append_eq_nil_iff] at he
        replace he := he.2
        split at h₆
        · next h₇ =>
          rw [if_pos h₇] at he
          exact absurd he (errors_error_append_ne_nil _ _ _)
        · next h₇ =>
          rw [if_neg h₇, Step.log_after, LogEntry.errors_append, List.append_eq_nil_iff] at he
          exact ih h₆ he.2

end RecordQuery.Format

namespace RecordQuery

open Format

/-- If a text is read as a qualifier without an error, the characters that are left are the end of
the text, and there are none unless the first of them is a closing parenthesis. -/
theorem exists_stop_of_parse {format : String} {args : List Value} {q : Qualifier}
    (h : (Qualifier.parse format args).value = some q)
    (he : LogEntry.errors (Qualifier.parse format args).log = []) :
    ∃ c, (Format.read format.toList args).result = some (q, c) ∧ c.rest <:+ format.toList ∧
      (c.rest = [] ↔ ∀ r, c.rest ≠ ')' :: r) := by
  obtain ⟨⟨p, c⟩, h₁, rfl⟩ := Option.map_eq_some_iff.1 h
  refine ⟨c, h₁, ?_, ?_⟩
  · have h₂ := (reaches_skipSpaces ⟨format.toList, args⟩).rest
    simp only [Format.read] at h₁
    split at h₁
    · contradiction
    · exact ((proceeds_oneQualifier_row _ _).2 _ _ _ _ _ h₁).rest.trans h₂
  · have h₂ : EndsRow c.rest := by
      simp only [Qualifier.parse, Format.read] at h₁ he
      split at h₁
      · contradiction
      · next h₃ =>
        rw [if_neg h₃] at he
        exact endsRow_of_row h₁ he
    rcases h₂ with h₂ | ⟨r, h₂⟩
    · simp [h₂]
    · simp [h₂]

/-- A text without a closing parenthesis is read to its end. -/
theorem exists_stop_of_parse_quoted :
    let q : Qualifier := .keyValue (.ofText "a") (.known .equalTo) (.constant (.string "x"))
    ((Qualifier.parse "a = \x27x\x27" []).value = some q.reread ∧
        LogEntry.errors (Qualifier.parse "a = \x27x\x27" []).log = []) ∧
      ∃ c, (Format.read "a = \x27x\x27".toList []).result = some (q.reread, c) ∧ c.rest = [] := by
  intro q
  have ha : LeftName "a" :=
    ⟨⟨⟨by decide, by decide, by decide⟩, by decide, by decide⟩, by decide⟩
  have hq : Legible q := .keyValue_ofText ha (readable_known _) rfl
  have h : Qualifier.parse "a = \x27x\x27" [] = ⟨some q.reread, []⟩ := hq.parse_text
  have h₁ : (Qualifier.parse "a = \x27x\x27" []).value = some q.reread := by rw [h]
  have h₂ : LogEntry.errors (Qualifier.parse "a = \x27x\x27" []).log = [] := by
    rw [h]
    rfl
  obtain ⟨c, h₃, h₄, h₅⟩ := exists_stop_of_parse h₁ h₂
  refine ⟨⟨h₁, h₂⟩, c, h₃, h₅.2 fun r hr => ?_⟩
  have h₆ : ')' ∈ "a = \x27x\x27".toList := h₄.subset (by simp [hr])
  exact absurd h₆ (by decide)

/-- A parenthesis that none opens hides what follows it, and nothing is logged. -/
theorem read_unopened {q : Qualifier} (h : Legible q) (rest : List Char) :
    Format.read (q.text.toList ++ ')' :: rest) [] = .ok q.reread ⟨')' :: rest, []⟩ := by
  have h₁ := h.renders.row
  have h₂ := h₁.read (Text.unitCount (q.text.toList ++ ')' :: rest))
    (stepBound (q.text.toList ++ ')' :: rest)) (')' :: rest) [] (.inr ⟨rest, rfl⟩)
    (by simp [stepBound])
  simpa [Format.read, h₁.opens.skipSpaces, h₁.opens.isEmpty] using h₂

/-- A clause after a parenthesis that none opens is passed over. -/
theorem parse_unopened :
    let q : Qualifier := .keyValue (.ofText "a") (.known .equalTo) (.constant (.string "x"))
    let rest := ") AND b = \x27y\x27".toList
    Qualifier.parse "a = \x27x\x27) AND b = \x27y\x27" [] = ⟨some q.reread, []⟩ ∧
      (Format.read "a = \x27x\x27) AND b = \x27y\x27".toList []).result =
        some (q.reread, ⟨rest, []⟩) ∧
      rest ≠ [] := by
  intro q rest
  have ha : LeftName "a" :=
    ⟨⟨⟨by decide, by decide, by decide⟩, by decide, by decide⟩, by decide⟩
  have hq : Legible q := .keyValue_ofText ha (readable_known _) rfl
  have h := read_unopened hq " AND b = \x27y\x27".toList
  have h₁ : q.text = "a = \x27x\x27" := rfl
  have h₂ : "a = \x27x\x27".toList ++ ')' :: " AND b = \x27y\x27".toList =
      "a = \x27x\x27) AND b = \x27y\x27".toList := by decide
  rw [h₁, h₂] at h
  refine ⟨?_, by rw [h]; rfl, by decide⟩
  rw [Qualifier.parse, h]
  rfl

end RecordQuery
