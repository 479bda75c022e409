import RecordQuery.Format.Lexeme
import RecordQuery.Proofs.Number.Written

/-!
# Where lexemes end

A written lexeme is read back if what follows cannot extend it. What may follow is a condition on
the first character of the rest only: `EndsWord`, `EndsName` and `EndsLiteral`, the first of which
implies the others.

* `takeName?_append`, `eq_of_takeName?`: names, in both directions;
* `stripKeyword?_append`: whether a text starts with a keyword does not depend on what follows it;
* `quotedBody_escape`, `takenAsNumeral_numberText`: quoted texts and numbers.
-/

namespace RecordQuery.Format

-- What holds of the characters of a text is decided over the text, even where there is an instance
-- that decides it over all characters.
attribute [instance (20000)] List.decidableBAll Option.decidableForallMem

/-! ## What may follow -/

/-- Nothing, or a space. -/
def EndsWord (r : List Char) : Prop :=
  ∀ c ∈ r.head?, isSpace c = true

/-- Nothing, or a break. -/
def EndsName (r : List Char) : Prop :=
  ∀ c ∈ r.head?, isBreak c = true

/-- Nothing, or a space, a comma or a closing parenthesis. -/
def EndsLiteral (r : List Char) : Prop :=
  ∀ c ∈ r.head?, isSpace c = true ∨ c = ',' ∨ c = ')'

theorem isBreak_of_isSpace {c : Char} (h : isSpace c = true) : isBreak c = true := by
  simp [isBreak, h]

theorem isSpace_eq_true {c : Char} :
    isSpace c = true ↔ c = ' ' ∨ c = '\t' ∨ c = '\n' ∨ c = '\r' := by
  simp [isSpace, or_assoc]

theorem isSpace_of_isBreak_eq_false {c : Char} (h : isBreak c = false) : isSpace c = false := by
  simp only [isBreak, Bool.or_eq_false_iff] at h
  exact h.1

/-- All breaks. -/
def breaks : List Char :=
  [' ', '\t', '\n', '\r', '<', '>', '=', '*', '/', '+', '-', '(', ')', ']', '!']

theorem mem_breaks_of_isBreak {c : Char} (h : isBreak c = true) : c ∈ breaks := by
  simpa [isBreak, isSpace, breaks, or_assoc] using h

theorem isBreak_eq_false {p : Char → Bool} (hp : ∀ d ∈ breaks, p d = false) {c : Char}
    (h : p c = true) : isBreak c = false := by
  cases hc : isBreak c with
  | false => rfl
  | true =>
    rw [hp c (mem_breaks_of_isBreak hc)] at h
    contradiction

theorem EndsWord.endsName {r : List Char} (h : EndsWord r) : EndsName r :=
  fun c hc => isBreak_of_isSpace (h c hc)

theorem EndsWord.endsLiteral {r : List Char} (h : EndsWord r) : EndsLiteral r :=
  fun c hc => .inl (h c hc)

theorem EndsLiteral.endsKeyword {r : List Char} (h : EndsLiteral r) : endsKeyword r = true := by
  cases r with
  | nil => rfl
  | cons c r =>
    rcases h c rfl with hc | rfl | rfl
    · simp [RecordQuery.Format.endsKeyword, isBreak_of_isSpace hc]
    · rfl
    · rfl

theorem EndsName.endsKeyword {r : List Char} (h : EndsName r) : endsKeyword r = true := by
  cases r with
  | nil => rfl
  | cons c r => simp [RecordQuery.Format.endsKeyword, h c rfl]

@[simp] theorem endsWord_nil : EndsWord [] := by
  simp [EndsWord]

@[simp] theorem endsWord_space_cons (r : List Char) : EndsWord (' ' :: r) := by
  simp [EndsWord, isSpace]

/-! ## Spaces -/

@[simp] theorem skipSpaces_space_cons (r : List Char) : skipSpaces (' ' :: r) = skipSpaces r := rfl

theorem skipSpaces_cons_of_not_isSpace {c : Char} (h : isSpace c = false) (r : List Char) :
    skipSpaces (c :: r) = c :: r := by
  simp [skipSpaces, h]

theorem skipSpaces_append {ws : List Char} (h : ∀ c ∈ ws, isSpace c = true) (r : List Char) :
    skipSpaces (ws ++ r) = skipSpaces r :=
  List.dropWhile_append_of_pos h

/-! ## Tokens and keywords -/

@[simp] theorem strip?_nil (r : List Char) : strip? [] r = some r := by
  cases r <;> rfl

/-- A token without breaks does not reach over the end of a name. -/
theorem strip?_append_of_endsName {ts : List Char} (ht : ∀ t ∈ ts, isBreak t = false)
    (w : List Char) {r : List Char} (hr : EndsName r) :
    strip? ts (w ++ r) = (strip? ts w).map (· ++ r) := by
  induction ts generalizing w with
  | nil => simp
  | cons t ts ih =>
    have h₁ : isBreak t = false := ht t (by simp)
    cases w with
    | nil =>
      cases r with
      | nil => rfl
      | cons c r =>
        have h₂ : t ≠ c := by
          rintro rfl
          rw [hr t rfl] at h₁
          contradiction
        simp [strip?, h₂]
    | cons c w =>
      by_cases h₂ : t = c
      · simp [strip?, h₂, ih fun t ht' => ht t (List.mem_cons_of_mem _ ht')]
      · simp [strip?, h₂]

theorem endsKeyword_append {r : List Char} (hr : EndsName r) (w : List Char) :
    endsKeyword (w ++ r) = endsKeyword w := by
  cases w with
  | nil => exact hr.endsKeyword
  | cons c w => rfl

theorem stripKeyword?_append {kw : String} (hk : ∀ t ∈ kw.toList, isBreak t = false)
    (w : List Char) {r : List Char} (hr : EndsName r) :
    stripKeyword? kw (w ++ r) = (stripKeyword? kw w).map (· ++ r) := by
  unfold stripKeyword?
  rw [strip?_append_of_endsName hk w hr]
  cases strip? kw.toList w with
  | none => rfl
  | some u =>
    simp only [Option.map_some, Option.filter_some, endsKeyword_append hr]
    split <;> rfl

theorem startsWithKeyword_append {kw : String} (hk : ∀ t ∈ kw.toList, isBreak t = false)
    (w : List Char) {r : List Char} (hr : EndsName r) :
    startsWithKeyword kw (w ++ r) = startsWithKeyword kw w := by
  simp [startsWithKeyword, stripKeyword?_append hk w hr]

/-! ## Names -/

/-- A text that is read as one name: not empty, without breaks, and not starting with a digit. -/
structure IsName (s : String) : Prop where
  ne_nil : s.toList ≠ []
  noDigit : ∀ c ∈ s.toList.head?, isDigit c = false
  noBreak : ∀ c ∈ s.toList, isBreak c = false

theorem takeWhile_append_of_ends {p : Char → Bool} {w r : List Char}
    (hw : ∀ c ∈ w, p c = true) (hr : ∀ c ∈ r.head?, p c = false) :
    (w ++ r).takeWhile p = w ∧ (w ++ r).dropWhile p = r := by
  rw [List.takeWhile_append_of_pos hw, List.dropWhile_append_of_pos hw]
  cases r with
  | nil => simp
  | cons c r => simp [hr c rfl]

theorem takeName?_append {s : String} (h : IsName s) {r : List Char} (hr : EndsName r) :
    takeName? (s.toList ++ r) = some (s, r) := by
  obtain ⟨h₁, h₂, h₃⟩ := h
  obtain ⟨h₄, h₅⟩ := takeWhile_append_of_ends (p := (! isBreak ·)) (w := s.toList) (r := r)
    (fun c hc => by simp [h₃ c hc]) (fun c hc => by simp [hr c hc])
  generalize hs : s.toList = w at *
  cases w with
  | nil => exact absurd rfl h₁
  | cons c w =>
    rw [List.cons_append] at h₄ h₅
    simp only [takeName?, List.cons_append, h₂ c rfl, h₃ c (by simp), h₄, h₅, Bool.or_self,
      Bool.false_eq_true, if_false, Option.some.injEq, Prod.mk.injEq, and_true]
    rw [← hs, String.ofList_toList]

/-- What is read as a name is one, and what is left cannot extend it. -/
theorem eq_of_takeName? {cs r : List Char} {s : String} (h : takeName? cs = some (s, r)) :
    IsName s ∧ EndsName r ∧ cs = s.toList ++ r := by
  obtain ⟨h₁, h₂⟩ := takeName?_eq_some h
  cases cs with
  | nil => simp [takeName?] at h
  | cons c cs =>
    simp only [takeName?] at h
    split at h
    · contradiction
    · next hc =>
      simp only [Bool.or_eq_true, not_or, Bool.not_eq_true] at hc
      simp only [Option.some.injEq, Prod.mk.injEq] at h
      obtain ⟨rfl, rfl⟩ := h
      refine ⟨⟨h₂, ?_, ?_⟩, ?_, h₁⟩
      · simp [hc.1, hc.2]
      · intro d hd
        rw [String.toList_ofList] at hd
        simpa using List.all_eq_true.1 (List.all_takeWhile (p := (! isBreak ·))) d hd
      · intro d hd
        have h₃ := List.head?_dropWhile_not (! isBreak ·) (c :: cs)
        rw [Option.mem_def.1 hd] at h₃
        simpa using h₃

/-! ## Quoted texts -/

theorem quotedBody_quote (q : Char) (r : List Char) : quotedBody q (q :: r) = .ok ([], r) := by
  cases r <;> simp [quotedBody]

theorem quotedBody_backslash {q : Char} (h : q ≠ Text.backslash) (c : Char) (r : List Char) :
    quotedBody q (Text.backslash :: c :: r) = (quotedBody q r).map (consRead c) := by
  simp [quotedBody, h.symm]

theorem quotedBody_cons {q c : Char} (h₁ : c ≠ q) (h₂ : c ≠ Text.backslash) (r : List Char) :
    quotedBody q (c :: r) = (quotedBody q r).map (consRead c) := by
  cases r with
  | nil => simp [quotedBody, h₁, h₂, Except.map]
  | cons d r => simp [quotedBody, h₁, h₂]

theorem quotedBody_escape {q : Char} {special : Char → Bool} (h₁ : special q = true)
    (h₂ : special Text.backslash = true) (h₃ : q ≠ Text.backslash) (cs r : List Char) :
    quotedBody q (Text.escape special cs ++ q :: r) = .ok (cs, r) := by
  induction cs with
  | nil => exact quotedBody_quote q r
  | cons c cs ih =>
    by_cases h : special c = true
    · simp [Text.escape, h, quotedBody_backslash h₃, ih, Except.map, consRead]
    · have h₄ : c ≠ q := fun h' => h (h' ▸ h₁)
      have h₅ : c ≠ Text.backslash := fun h' => h (h' ▸ h₂)
      simp [Text.escape, h, quotedBody_cons h₄ h₅, ih, Except.map, consRead]

/-! ## Numbers -/

theorem numeralTail_of_endsLiteral {r : List Char} (h : EndsLiteral r) (before : Char) :
    numeralTail before r = ([], r) := by
  cases r with
  | nil => rfl
  | cons c r =>
    rcases h c rfl with hc | rfl | rfl
    · have h₁ : isExponentSign before c = false := by
        rcases isSpace_eq_true.1 hc with rfl | rfl | rfl | rfl <;> rfl
      simp [numeralTail, isBreak_of_isSpace hc, h₁]
    · simp [numeralTail]
    · simp [numeralTail, isBreak, isExponentSign]

theorem numeralTail_append {m t r u : List Char} (hm : ∀ c ∈ m, isBreak c = false ∧ c ≠ ',')
    (hr : ∀ before, numeralTail before r = (t, u)) (before : Char) :
    numeralTail before (m ++ r) = (m ++ t, u) := by
  induction m generalizing before with
  | nil => exact hr before
  | cons c m ih =>
    obtain ⟨h₁, h₂⟩ := hm c (by simp)
    have h₃ := ih (fun d hd => hm d (List.mem_cons_of_mem _ hd)) c
    simp [numeralTail, h₁, h₂, h₃, consRead]

theorem isBreak_of_isDigit {c : Char} (h : isDigit c = true) : isBreak c = false ∧ c ≠ ',' := by
  refine ⟨isBreak_eq_false (p := isDigit) (by decide) h, ?_⟩
  rintro rfl
  exact absurd h (by decide)

theorem numeralTail_exponent (e : ExponentText) {r : List Char} (hr : EndsLiteral r)
    (before : Char) : numeralTail before (e.chars ++ r) = (e.chars, r) := by
  obtain ⟨mark, sign, ds, h₁, h₂, -, h₄⟩ := e
  have h₅ : ∀ b, numeralTail b (ds ++ r) = (ds ++ [], r) :=
    numeralTail_append (fun c hc => isBreak_of_isDigit (h₄ c hc)) (numeralTail_of_endsLiteral hr)
  rw [List.append_nil] at h₅
  have h₆ : isBreak 'e' = false ∧ isBreak 'E' = false := by decide
  rcases h₁ with rfl | rfl <;> rcases h₂ with rfl | rfl | rfl <;>
    simp [ExponentText.chars, numeralTail, h₅, h₆, isExponentSign, consRead]

theorem numeralTail_writtenExponent (e : Option Int) {r : List Char} (hr : EndsLiteral r)
    (before : Char) :
    numeralTail before (writtenExponent e ++ r) = (writtenExponent e, r) := by
  cases e with
  | none => exact numeralTail_of_endsLiteral hr before
  | some e =>
    rw [writtenExponent, ← ExponentText.chars_ofInt]
    exact numeralTail_exponent _ hr before

theorem startsNumeral_of_isDigit {d : Char} (h : isDigit d = true) (r : List Char) :
    startsNumeral (d :: r) = true := by
  cases r <;> simp [startsNumeral, h]

/-- A text that is taken as one numeral, with the given rest after it. -/
def TakenAsNumeral (cs r : List Char) : Prop :=
  ∃ c t, cs = c :: t ∧ startsNumeral (c :: t ++ r) = true ∧ (c = '-' ∨ isDigit c = true) ∧
    numeralTail c (t ++ r) = (t, r)

/-- A digit, further digits and points, and an exponent are taken as one numeral, with a minus sign
before them or not. -/
theorem takenAsNumeral_of_eq {d : Char} {m tail cs r : List Char} (hd : isDigit d = true)
    (hm : ∀ c ∈ m, isDigit c = true ∨ c = '.')
    (ht : ∀ before, numeralTail before (tail ++ r) = (tail, r))
    (h : cs = d :: m ++ tail ∨ cs = '-' :: d :: m ++ tail) : TakenAsNumeral cs r := by
  have hm' : ∀ c ∈ m, isBreak c = false ∧ c ≠ ',' := fun c hc => by
    rcases hm c hc with h | rfl
    · exact isBreak_of_isDigit h
    · decide
  have h₁ := fun before => numeralTail_append hm' ht before
  rcases h with rfl | rfl
  · refine ⟨d, m ++ tail, rfl, startsNumeral_of_isDigit hd _, .inr hd, ?_⟩
    rw [List.append_assoc]
    exact h₁ d
  · refine ⟨'-', d :: m ++ tail, rfl, ?_, .inl rfl, ?_⟩
    · simp [startsNumeral, hd]
    · obtain ⟨h₂, h₃⟩ := isBreak_of_isDigit hd
      simp [numeralTail, h₁ d, h₂, h₃, consRead]

/-- The text of a double is taken as one numeral. -/
theorem takenAsNumeral_chars (x : Double) {r : List Char} (hr : EndsLiteral r) :
    TakenAsNumeral x.chars r := by
  obtain ⟨d, m, e, hd, hm, h⟩ := x.chars_eq
  exact takenAsNumeral_of_eq hd hm (numeralTail_writtenExponent e hr) h

/-- A number in any of its forms is taken as one numeral. -/
theorem takenAsNumeral_numberText (t : NumberText) {r : List Char} (hr : EndsLiteral r) :
    TakenAsNumeral t.chars r := by
  obtain ⟨d, ds, h₁⟩ := List.exists_cons_of_ne_nil t.whole_ne_nil
  have h₂ := t.isDigit_mantissa
  rw [h₁] at h₂
  have h₃ : ∀ c ∈ ds ++ t.fraction.elim [] ('.' :: ·), isDigit c = true ∨ c = '.' := by
    intro c hc
    rcases List.mem_append.1 hc with hc | hc
    · exact .inl (h₂ c (by simp [hc]))
    · cases hf : t.fraction with
      | none => simp [hf] at hc
      | some fs =>
        simp only [hf, Option.elim_some, List.mem_cons] at hc
        rcases hc with rfl | hc
        · exact .inr rfl
        · exact .inl (h₂ c (by simp [hf, hc]))
  have h₄ : ∀ before, numeralTail before (t.exponent.elim [] ExponentText.chars ++ r) =
      (t.exponent.elim [] ExponentText.chars, r) := by
    cases t.exponent with
    | none => exact numeralTail_of_endsLiteral hr
    | some e => exact numeralTail_exponent e hr
  refine takenAsNumeral_of_eq (h₂ d (by simp)) h₃ h₄ ?_
  unfold NumberText.chars NumberText.unsignedChars
  rw [h₁]
  split
  · exact .inr (by simp)
  · exact .inl (by simp)

end RecordQuery.Format
