import RecordQuery.Format.Parser

/-!
# Arguments are taken exactly

A parse takes its arguments from the left, one for each pattern that it comes to. Where it succeeds,
the arguments that it took settle everything: whatever comes after them makes no difference, and
where one of them is missing the parse fails at the pattern that asks for it, with what was logged
up to there.

* `TakesExactly`: what this says of a parser as a function of its arguments, with a rule for each
  way of putting parsers together.
* `takesExactly_oneQualifier_row`: the two functions that call each other, by induction on the
  steps.
* `exists_taken_of_parse`: the number of arguments that a whole text takes.
-/

namespace RecordQuery.Format

variable {α β : Type}

/-- The entry that is logged where an argument is missing. -/
def missingArgument : LogEntry :=
  .error "more format patterns than arguments" []

/-- A parser gives a value and logs entries, and takes the arguments `used` for that. Others after
them make no difference, and without the last of them it ends where the first missing one is
asked for. -/
structure Takes (f : List Value → Step α) (used : List Value) (log : List LogEntry) (a : α)
    (rest : List Char) (textless : Bool) : Prop where
  enough : ∀ more, f (used ++ more) = ⟨log, some (a, ⟨rest, more⟩), textless⟩
  short : ∀ j < used.length, ∃ es b, es <+: log ∧
    f (used.take j) = ⟨es ++ [missingArgument], none, b⟩

/-- Where a parser succeeds, the arguments that it took settle what it does. -/
def TakesExactly (f : List Value → Step α) : Prop :=
  ∀ args a c, (f args).result = some (a, c) →
    ∃ used, used ++ c.args = args ∧ Takes f used (f args).log a c.rest (f args).textless

theorem takesExactly_ok (a : α) (rest : List Char) :
    TakesExactly fun args => Step.ok a ⟨rest, args⟩ := by
  intro args b c h
  obtain ⟨rfl, rfl⟩ := Prod.mk.inj (Option.some.inj h)
  exact ⟨[], rfl, fun more => rfl, fun j hj => absurd hj (Nat.not_lt_zero j)⟩

theorem takesExactly_none (log : List LogEntry) (textless : Bool) :
    TakesExactly fun _ => (⟨log, none, textless⟩ : Step α) :=
  fun _ _ _ h => by contradiction

theorem takesExactly_fail (message : String) :
    TakesExactly fun _ => (Step.fail message : Step α) :=
  takesExactly_none _ _

theorem TakesExactly.after {f : List Value → Step α} (h : TakesExactly f)
    (entries : List LogEntry) : TakesExactly fun args => (f args).after entries := by
  intro args a c hr
  obtain ⟨used, h₁, h₂⟩ := h args a c hr
  refine ⟨used, h₁, fun more => ?_, fun j hj => ?_⟩
  · simp only [h₂.enough more]
    rfl
  · obtain ⟨es, b, h₃, h₄⟩ := h₂.short j hj
    refine ⟨entries ++ es, b, (List.prefix_append_right_inj _).2 h₃, ?_⟩
    simp only [h₄, Step.after, List.append_assoc]

theorem TakesExactly.asking {f : List Value → Step α} (h : TakesExactly f) (v : Value) :
    TakesExactly fun args => (f args).asking v := by
  intro args a c hr
  obtain ⟨used, h₁, h₂⟩ := h args a c hr
  refine ⟨used, h₁, fun more => ?_, fun j hj => ?_⟩
  · simp only [h₂.enough more]
    rfl
  · obtain ⟨es, b, h₃, h₄⟩ := h₂.short j hj
    refine ⟨es, v.text?.isNone || b, h₃, ?_⟩
    simp only [h₄]
    rfl

theorem TakesExactly.bind {f : List Value → Step α} {g : α → Cursor → Step β}
    (hf : TakesExactly f) (hg : ∀ a rest, TakesExactly fun args => g a ⟨rest, args⟩) :
    TakesExactly fun args => (f args).bind g := by
  intro args b d hr
  obtain ⟨a, c, h₁, h₂⟩ := Step.result_bind_eq_some.1 hr
  obtain ⟨used, h₃, h₄⟩ := hf args a c h₁
  obtain ⟨used', h₅, h₆⟩ := hg a c.rest c.args b d h₂
  have h₇ : (f args).bind g = (f args).behind (g a c) := Step.bind_of_result h₁ g
  refine ⟨used ++ used', by rw [List.append_assoc, h₅, h₃], fun more => ?_, fun j hj => ?_⟩
  · simp only [h₇, List.append_assoc, h₄.enough]
    exact congrArg (Step.behind (f args)) (h₆.enough more)
  · simp only [h₇, List.take_append, Step.log_behind]
    rw [List.length_append] at hj
    by_cases hu : j < used.length
    · -- The first parser misses an argument already.
      obtain ⟨es, b, h₈, h₉⟩ := h₄.short j hu
      have h₁₀ : j - used.length = 0 := by omega
      refine ⟨es, b, h₈.trans (List.prefix_append _ _), ?_⟩
      rw [h₁₀, List.take_zero, List.append_nil, h₉]
      rfl
    · obtain ⟨es, b, h₈, h₉⟩ := h₆.short (j - used.length) (by omega)
      refine ⟨(f args).log ++ es, (f args).textless || b,
        (List.prefix_append_right_inj _).2 h₈, ?_⟩
      rw [List.take_of_length_le (by omega), h₄.enough, Step.bind]
      simp only [h₉, Step.behind, List.append_assoc]

/-- A test that does not look at the arguments. -/
theorem TakesExactly.ite {p : Prop} {d : List Value → Decidable p} {f g : List Value → Step α}
    (hf : TakesExactly f) (hg : TakesExactly g) :
    TakesExactly fun args => @ite _ p (d args) (f args) (g args) := by
  by_cases h : p
  · simpa only [if_pos h] using hf
  · simpa only [if_neg h] using hg

theorem TakesExactly.map {f : List Value → Step α} (h : TakesExactly f) (g : α → β) :
    TakesExactly fun args => (f args).map g := by
  have h₁ : (fun args => (f args).map g) = fun args => (f args).bind fun a c => .ok (g a) c := by
    funext args
    cases hr : (f args).result with
    | none => simp [Step.map, Step.bind, hr]
    | some p => simp [Step.map, Step.bind, hr, Step.behind, Step.ok]
  rw [h₁]
  exact h.bind fun a rest => takesExactly_ok (g a) rest

/-! ## Literals -/

theorem takesExactly_failAt (size : Nat) (reason : String) (rest : List Char) :
    TakesExactly fun args => (Step.fail (Cursor.message size reason ⟨rest, args⟩) : Step α) :=
  takesExactly_fail (Cursor.message size reason ⟨rest, []⟩)

theorem takesExactly_quotedText (q : Char) (rest : List Char) :
    TakesExactly fun args => quotedText q ⟨rest, args⟩ := by
  simp only [quotedText]
  split
  · exact takesExactly_ok _ _
  · exact takesExactly_fail _
  · exact takesExactly_fail _

theorem takesExactly_numeral (first : Char) (rest : List Char) :
    TakesExactly fun args => numeral first ⟨rest, args⟩ := by
  simp only [numeral]
  split
  · exact takesExactly_ok _ _
  · exact takesExactly_fail _

theorem takesExactly_literal (size : Nat) (rest : List Char) :
    TakesExactly fun args => literal size ⟨rest, args⟩ := by
  simp only [literal]
  split
  · exact takesExactly_failAt _ _ _
  · refine .ite (takesExactly_quotedText _ _) (.ite (takesExactly_numeral _ _) ?_)
    split
    · exact takesExactly_ok _ _
    · exact takesExactly_failAt _ _ _

theorem takesExactly_castClass (rest : List Char) :
    TakesExactly fun args => castClass ⟨rest, args⟩ := by
  simp only [castClass]
  split
  · exact takesExactly_fail _
  · split
    · exact takesExactly_ok _ _
    · exact takesExactly_fail _

theorem takesExactly_constant (size : Nat) (rest : List Char) :
    TakesExactly fun args => constant size ⟨rest, args⟩ := by
  simp only [constant]
  split
  · exact takesExactly_literal _ _
  · refine .bind (takesExactly_castClass _) fun name r => ?_
    dsimp only [Cursor.at]
    refine .ite (takesExactly_fail _) (.bind (takesExactly_literal _ _) fun v r => ?_)
    exact (takesExactly_ok v r).after _

theorem takesExactly_listItems (size n : Nat) (rest : List Char) :
    TakesExactly fun args => listItems size n ⟨rest, args⟩ := by
  induction n generalizing rest with
  | zero => exact takesExactly_none _ _
  | succ n ih =>
    simp only [listItems, Cursor.at]
    refine .ite (takesExactly_fail _) (.bind (takesExactly_literal _ _) fun v r => ?_)
    dsimp only
    split
    · exact (ih _).map _
    · exact takesExactly_ok _ _
    · exact takesExactly_failAt _ _ _

theorem takesExactly_valueList (size : Nat) (rest : List Char) :
    TakesExactly fun args => valueList size ⟨rest, args⟩ := by
  simp only [valueList, Cursor.at]
  split
  · exact takesExactly_ok _ _
  · exact (takesExactly_listItems _ _ _).map _

theorem takesExactly_constantOrList (size : Nat) (op : Operation) (rest : List Char) :
    TakesExactly fun args => constantOrList size op ⟨rest, args⟩ := by
  simp only [constantOrList, Cursor.at]
  split
  · exact .ite (takesExactly_valueList _ _) (takesExactly_constant _ _)
  · exact takesExactly_constant _ _

/-! ## Patterns -/

/-- A parser that asks for the next argument goes on with it, or misses it. -/
theorem takesExactly_next {g : Value → List Value → Step α} (hg : ∀ v, TakesExactly (g v)) :
    TakesExactly fun args => match args with
      | [] => noArgument
      | v :: args => g v args := by
  rintro (_ | ⟨v, args⟩) a c h
  · contradiction
  · obtain ⟨used, h₁, h₂⟩ := hg v args a c h
    refine ⟨v :: used, congrArg (v :: ·) h₁, h₂.enough, fun j hj => ?_⟩
    cases j with
    | zero => exact ⟨[], false, List.nil_prefix, rfl⟩
    | succ j => exact h₂.short j (Nat.lt_of_succ_lt_succ hj)

theorem takesExactly_resolve (word : String) (rest : List Char) :
    TakesExactly fun args => resolve word ⟨rest, args⟩ := by
  simp only [resolve]
  refine .ite (takesExactly_next fun v => ?_) (takesExactly_ok _ _)
  split
  · exact .ite ((takesExactly_ok _ _).asking v) (.ite (takesExactly_fail _) (takesExactly_fail _))
  · exact takesExactly_fail _

theorem takesExactly_argumentComparison (key : String) (op : Operation) (specifier : Char)
    (v : Value) (rest : List Char) :
    TakesExactly fun args => argumentComparison key op specifier v ⟨rest, args⟩ := by
  simp only [argumentComparison]
  have h (q : Qualifier) := (takesExactly_ok q rest).asking v
  refine .ite (takesExactly_ok _ _) (.ite (h _) (.ite (h _) (.ite (h _) (.ite ?_ ?_))))
  · exact .ite (takesExactly_fail _) (h _)
  · exact .ite (takesExactly_fail _) (takesExactly_fail _)

theorem takesExactly_argumentValue (key : String) (op : Operation) (rest : List Char) :
    TakesExactly fun args => argumentValue key op ⟨rest, args⟩ := by
  simp only [argumentValue]
  split
  · exact takesExactly_fail _
  · exact takesExactly_next fun v => takesExactly_argumentComparison _ _ _ v _

/-! ## Clauses -/

theorem takesExactly_operand (size : Nat) (key token : String) (rest : List Char) :
    TakesExactly fun args => operand size key token ⟨rest, args⟩ := by
  simp only [operand, Cursor.at]
  split
  · exact takesExactly_fail _
  · split
    · exact takesExactly_ok _ _
    · exact takesExactly_fail _
  · exact takesExactly_argumentValue _ _ _
  · refine .ite ((takesExactly_constantOrList _ _ _).map _) ?_
    split
    · exact takesExactly_ok _ _
    · exact takesExactly_fail _

theorem takesExactly_afterOperation (size : Nat) (key token : String) (rest : List Char) :
    TakesExactly fun args => afterOperation size key token ⟨rest, args⟩ := by
  simp only [afterOperation, Cursor.at]
  split
  · exact takesExactly_ok _ _
  · exact takesExactly_operand _ _ _ _

theorem takesExactly_afterKey (size : Nat) (key : String) (rest : List Char) :
    TakesExactly fun args => afterKey size key ⟨rest, args⟩ := by
  simp only [afterKey, Cursor.at]
  refine .ite (takesExactly_ok _ _) ?_
  split
  · exact takesExactly_ok _ _
  · exact .bind (takesExactly_resolve _ _) fun token r => takesExactly_afterOperation _ _ token r

theorem takesExactly_clause (size : Nat) (rest : List Char) :
    TakesExactly fun args => clause size ⟨rest, args⟩ := by
  simp only [clause, Cursor.at]
  split
  · exact takesExactly_failAt _ _ _
  · exact .bind (takesExactly_resolve _ _) fun key r => takesExactly_afterKey _ key r

/-! ## Rows -/

theorem takesExactly_rawSql (rest : List Char) :
    TakesExactly fun args => rawSql ⟨rest, args⟩ := by
  simp only [rawSql, Cursor.at]
  exact (takesExactly_ok _ _).after _

theorem takesExactly_closeParenthesis (q : Qualifier) (rest : List Char) :
    TakesExactly fun args => closeParenthesis q ⟨rest, args⟩ := by
  simp only [closeParenthesis, Cursor.at]
  split
  · exact takesExactly_ok _ _
  · exact (takesExactly_ok _ _).after _

theorem takesExactly_endCompound (last : Option String) (qs : List Qualifier) (rest : List Char) :
    TakesExactly fun args => endCompound last qs ⟨rest, args⟩ := by
  simp only [endCompound]
  cases (buildCompound (last.getD "AND") qs).value with
  | none => exact takesExactly_none _ _
  | some q =>
    have h := (takesExactly_ok q rest).after (buildCompound (last.getD "AND") qs).log
    simpa only [Step.after, Step.ok, List.append_nil, Option.map_some] using h

theorem takesExactly_oneQualifier_succ {size n : Nat}
    (h₁ : ∀ rest, TakesExactly fun args => oneQualifier size n ⟨rest, args⟩)
    (h₂ : ∀ rest, TakesExactly fun args => row size n none [] ⟨rest, args⟩) (rest : List Char) :
    TakesExactly fun args => oneQualifier size (n + 1) ⟨rest, args⟩ := by
  simp only [oneQualifier, Cursor.at]
  refine .ite (takesExactly_none _ _) ?_
  split
  -- a parenthesis
  · exact .ite (takesExactly_fail _)
      (.bind (h₂ _) fun q r => takesExactly_closeParenthesis q r)
  · split
    -- a negation
    · exact .ite (takesExactly_fail _) ((h₁ _).map _)
    · split
      · exact takesExactly_rawSql _
      · split
        · exact takesExactly_ok _ _
        · split
          · exact takesExactly_ok _ _
          · exact takesExactly_clause _ _

theorem takesExactly_row_succ {size n : Nat}
    (h₁ : ∀ rest, TakesExactly fun args => oneQualifier size n ⟨rest, args⟩)
    (h₂ : ∀ last qs rest, TakesExactly fun args => row size n last qs ⟨rest, args⟩)
    (last : Option String) (qs : List Qualifier) (rest : List Char) :
    TakesExactly fun args => row size (n + 1) last qs ⟨rest, args⟩ := by
  simp only [row, Cursor.at]
  refine .bind (h₁ _) fun q r => ?_
  dsimp only
  refine .ite (takesExactly_endCompound _ _ _) ?_
  split
  · exact (takesExactly_endCompound _ _ _).after
      [.error (Cursor.message size "could not parse compound operator" ⟨_, []⟩) []]
  · refine .bind (takesExactly_resolve _ _) fun word r => ?_
    dsimp only
    exact .ite ((takesExactly_endCompound _ _ _).after _) ((h₂ _ _ _).after _)

/-- Reading a qualifier or a row takes its arguments exactly. -/
theorem takesExactly_oneQualifier_row (size n : Nat) :
    (∀ rest, TakesExactly fun args => oneQualifier size n ⟨rest, args⟩) ∧
      ∀ last qs rest, TakesExactly fun args => row size n last qs ⟨rest, args⟩ := by
  -- The two functions call each other with one step less, wherever the cursor then stands.
  induction n with
  | zero => exact ⟨fun _ => takesExactly_none _ _, fun _ _ _ => takesExactly_none _ _⟩
  | succ n ih =>
    obtain ⟨h₁, h₂⟩ := ih
    exact ⟨takesExactly_oneQualifier_succ h₁ (h₂ none []), takesExactly_row_succ h₁ h₂⟩

theorem takesExactly_read (text : List Char) : TakesExactly (read text) := by
  unfold read
  exact .ite (takesExactly_none _ _) ((takesExactly_oneQualifier_row _ _).2 _ _ _)

end RecordQuery.Format

namespace RecordQuery

open Format

/-- Where a qualifier is parsed, the parse takes the first `k` arguments. With any others after them
it gives the same qualifier and logs the same entries; with fewer it gives none, and the last entry
of its log says that an argument is missing. -/
theorem exists_taken_of_parse {format : String} {args : List Value} {q : Qualifier}
    (h : (Qualifier.parse format args).value = some q) :
    ∃ k ≤ args.length,
      (∀ args' : List Value, args'.take k = args.take k →
        Qualifier.parse format args' = Qualifier.parse format args) ∧
      ∀ j < k, (Qualifier.parse format (args.take j)).value = none ∧
        ∃ entries, entries <+: (Qualifier.parse format args).log ∧
          (Qualifier.parse format (args.take j)).log =
            entries ++ [.error "more format patterns than arguments" []] := by
  obtain ⟨⟨p, c⟩, h₁, -⟩ := Option.map_eq_some_iff.1 h
  obtain ⟨used, h₂, h₃⟩ := takesExactly_read _ _ _ _ h₁
  have h₄ : args.take used.length = used := by rw [← h₂, List.take_left]
  refine ⟨used.length, by simp [← h₂], fun args' h₅ => ?_, fun j hj => ?_⟩
  · have h₆ : args' = used ++ args'.drop used.length :=
      calc args' = args'.take used.length ++ args'.drop used.length :=
            (List.take_append_drop _ _).symm
        _ = used ++ args'.drop used.length := by rw [h₅, h₄]
    simp only [Qualifier.parse]
    rw [h₆, h₃.enough, h₁]
    rfl
  · obtain ⟨es, _, h₅, h₆⟩ := h₃.short j hj
    have h₇ : args.take j = used.take j := by
      rw [← h₄, List.take_take, Nat.min_eq_left (Nat.le_of_lt hj)]
    simp only [Qualifier.parse]
    rw [h₇, h₆]
    exact ⟨rfl, es, h₅, rfl⟩

/-- Six arguments, in the places of keys, of an operation, of values and of a connective; the
seventh is not looked at. -/
theorem exists_taken_of_parse_six :
    let format := "%K %@ %@ %@ NOT (%K = %s)"
    let args : List Value := [.string "name", .string "=", .string "x", .string "OR", .string "age",
      .string "y", .string "z"]
    let q : Qualifier := .compound .or
      [.keyValue (.name "name") (.known .equalTo) (.constant (.string "x")),
        .not (.keyValue (.name "age") (.known .equalTo) (.constant (.string "y")))]
    (Qualifier.parse format args).value = some q ∧
      ∃ k ≤ args.length,
        (∀ args' : List Value, args'.take k = args.take k →
          Qualifier.parse format args' = Qualifier.parse format args) ∧
        ∀ j < k, (Qualifier.parse format (args.take j)).value = none ∧
          ∃ entries, entries <+: (Qualifier.parse format args).log ∧
            (Qualifier.parse format (args.take j)).log =
              entries ++ [.error "more format patterns than arguments" []] := by
  intro format args q
  have h : (Qualifier.parse format args).value = some q := by
    simp only [format, args, q]
    rfl
  exact ⟨h, exists_taken_of_parse h⟩

end RecordQuery
