import RecordQuery.Format.Clause
import RecordQuery.Proofs.Constant
import RecordQuery.Proofs.Format.Lexeme

/-!
# Written constants are read back

A scalar is read as one literal (`literal_text`), and a flat array as a list (`valueList_text`),
whatever follows that cannot extend them. `constantOrList_text` puts both together, for every
operation.
-/

namespace RecordQuery.Format

variable {rest : List Char} (args : List Value)

/-! ## The first character -/

/-- The first characters of written constants: they are neither spaces nor the marks of
placeholders, patterns and closing parentheses. -/
def opensConstant (c : Char) : Bool :=
  !isSpace c && c != '$' && c != '%' && c != ')'

theorem opensConstant_of_isDigit {c : Char} (h : isDigit c = true) : opensConstant c = true := by
  have h₁ : ∀ d, isDigit d = false → c ≠ d := by
    rintro d hd rfl
    rw [h] at hd
    contradiction
  simp [opensConstant, isSpace_of_isBreak_eq_false (isBreak_of_isDigit h).1,
    h₁ _ (by decide : isDigit '$' = false), h₁ _ (by decide : isDigit '%' = false),
    h₁ _ (by decide : isDigit ')' = false)]

/-- A numeral starts with a minus sign or a digit. -/
theorem TakenAsNumeral.exists_cons {cs r : List Char} (h : TakenAsNumeral cs r) :
    ∃ d t, cs = d :: t ∧ opensConstant d = true ∧ d ≠ '(' ∧ d ≠ 'N' := by
  obtain ⟨d, t, rfl, -, h₁, -⟩ := h
  refine ⟨d, t, rfl, ?_⟩
  rcases h₁ with rfl | h₁
  · exact ⟨rfl, by decide, by decide⟩
  · refine ⟨opensConstant_of_isDigit h₁, ?_, ?_⟩ <;> rintro rfl <;> contradiction

/-- A written constant starts with a parenthesis only if it is an array, and with the first letter
of `NULL` only if it is null. -/
theorem exists_text_eq_cons (c : Constant) :
    ∃ d r, c.text.toList = d :: r ∧ opensConstant d = true ∧ (c.isScalar = true → d ≠ '(') ∧
      (d = 'N' → c = .null) := by
  cases c with
  | null => exact ⟨'N', _, rfl, rfl, fun _ => by decide, fun _ => rfl⟩
  | bool b => cases b <;> exact ⟨_, _, rfl, rfl, fun _ => by decide, fun h => by contradiction⟩
  | number x =>
    obtain ⟨d, t, h₁, h₂, h₃, h₄⟩ :=
      (takenAsNumeral_chars x (r := []) (by simp [EndsLiteral])).exists_cons
    refine ⟨d, t, by rw [Constant.text, Double.text, String.toList_ofList, h₁], h₂, fun _ => h₃, ?_⟩
    exact fun h => absurd h h₄
  | string s =>
    refine ⟨Text.quote, _, by rw [Constant.text, Constant.quoted, String.toList_ofList]; rfl, ?_⟩
    exact ⟨rfl, fun _ => by decide, fun h => by contradiction⟩
  | date t =>
    refine ⟨Text.quote, _, by rw [Constant.text, Constant.quoted, String.toList_ofList]; rfl, ?_⟩
    exact ⟨rfl, fun _ => by decide, fun h => by contradiction⟩
  | array items =>
    refine ⟨'(', _, by rw [Constant.text, String.toList_append, String.toList_append]; rfl, ?_⟩
    exact ⟨rfl, fun h => by contradiction, fun h => by contradiction⟩

theorem skipSpaces_text (c : Constant) (r : List Char) :
    skipSpaces (c.text.toList ++ r) = c.text.toList ++ r := by
  obtain ⟨d, t, h₁, h₂, -⟩ := exists_text_eq_cons c
  simp only [opensConstant, Bool.and_eq_true, Bool.not_eq_true'] at h₂
  rw [h₁, List.cons_append, skipSpaces_cons_of_not_isSpace h₂.1.1.1]

theorem strip?_parenthesis_text {c : Constant} (h : c.isScalar = true) (r : List Char) :
    strip? ['('] (c.text.toList ++ r) = none := by
  obtain ⟨d, t, h₁, -, h₂, -⟩ := exists_text_eq_cons c
  rw [h₁]
  simp [strip?, Ne.symm (h₂ h)]

theorem strip?_close_text (c : Constant) (r : List Char) :
    strip? [')'] (c.text.toList ++ r) = none := by
  obtain ⟨d, t, h₁, h₂, -⟩ := exists_text_eq_cons c
  simp only [opensConstant, Bool.and_eq_true, bne_iff_ne] at h₂
  simp [h₁, strip?, h₂.2.symm]

/-! ## Literals -/

theorem takeLiteralWord?_null (hr : EndsLiteral rest) :
    takeLiteralWord? ("NULL".toList ++ rest) = some (.null, rest) := by
  simp [takeLiteralWord?, literalWords, stripKeyword?, strip?, Option.filter, hr.endsKeyword]

theorem takeLiteralWord?_bool (b : Bool) (hr : EndsLiteral rest) :
    takeLiteralWord? ((Constant.bool b).text.toList ++ rest) = some (.bool b, rest) := by
  cases b <;>
    simp [Constant.text, takeLiteralWord?, literalWords, stripKeyword?, strip?, Option.filter,
      hr.endsKeyword]

theorem literal_quoted (size : Nat) (s : String) (rest : List Char) (args : List Value) :
    literal size ⟨(Constant.quoted s).toList ++ rest, args⟩ = .ok (.string s) ⟨rest, args⟩ := by
  have h : quotedBody Text.quote
      (Text.escape Constant.needsEscape s.toList ++ Text.quote :: rest) = .ok (s.toList, rest) :=
    quotedBody_escape (by decide) (by decide) (by decide) s.toList rest
  simp [Constant.quoted, literal, quotedText, h, Cursor.at]

/-- A text that starts with neither a quote nor a numeral is read as a word. -/
theorem literal_word (size : Nat) {cs : List Char} {v : Value}
    (h₁ : ∀ d ∈ cs.head?, d ≠ Text.quote ∧ d ≠ Text.doubleQuote) (h₂ : startsNumeral cs = false)
    (h₃ : takeLiteralWord? cs = some (v, rest)) :
    literal size ⟨cs, args⟩ = .ok v ⟨rest, args⟩ := by
  cases cs with
  | nil => simp [takeLiteralWord?, literalWords, stripKeyword?, strip?] at h₃
  | cons d cs =>
    obtain ⟨h₄, h₅⟩ := h₁ d rfl
    simp [literal, h₄, h₅, h₂, h₃, Cursor.at]

/-- What is taken as one numeral is read as the number nearest to its decimal. -/
theorem literal_numeral (size : Nat) {cs : List Char} (h : TakenAsNumeral cs rest) {d : Decimal}
    (hd : Decimal.read? cs = some d) :
    literal size ⟨cs ++ rest, args⟩ = .ok (.number d.toNumber) ⟨rest, args⟩ := by
  obtain ⟨c, t, rfl, h₁, h₂, h₃⟩ := h
  rw [List.cons_append] at h₁ ⊢
  have h₄ : ¬ (c = Text.quote ∨ c = Text.doubleQuote) := by
    rintro (rfl | rfl) <;> rcases h₂ with h₂ | h₂ <;> revert h₂ <;> decide
  simp only [literal, if_neg h₄, if_pos h₁, numeral, Cursor.at, h₃, hd]

theorem literal_text (size : Nat) {c : Constant} (h : c.isScalar = true) (hr : EndsLiteral rest) :
    literal size ⟨c.text.toList ++ rest, args⟩ = .ok c.reread.toValue ⟨rest, args⟩ := by
  cases c with
  | null =>
    refine literal_word args size ?_ ?_ (takeLiteralWord?_null hr)
    · simp [Constant.text, Text.quote, Text.doubleQuote]
    · simp [Constant.text, startsNumeral, isDigit]
  | bool b =>
    refine literal_word args size ?_ ?_ (takeLiteralWord?_bool b hr)
    · cases b <;> simp [Constant.text, Text.quote, Text.doubleQuote]
    · cases b <;> simp [Constant.text, startsNumeral, isDigit]
  | number x =>
    obtain ⟨m, h₁, h₂⟩ := x.read?_chars
    rw [Constant.text, Double.text, String.toList_ofList,
      literal_numeral args size (takenAsNumeral_chars x hr) h₁, h₂]
    rfl
  | string s => exact literal_quoted size s rest args
  | date t => exact literal_quoted size t.isoText rest args
  | array items => contradiction

theorem startsConstant_numeral {cs : List Char} (h : TakenAsNumeral cs rest) :
    startsConstant (cs ++ rest) = true := by
  obtain ⟨c, t, rfl, h₁, -⟩ := h
  rw [startsConstant, h₁]
  simp

theorem startsConstant_text (c : Constant) (hr : EndsLiteral rest) :
    startsConstant (c.text.toList ++ rest) = true := by
  cases c with
  | null =>
    have h : takeLiteralWord? (Constant.null.text.toList ++ rest) = _ := takeLiteralWord?_null hr
    simp [startsConstant, h]
  | bool b => simp [startsConstant, takeLiteralWord?_bool b hr]
  | number x =>
    rw [Constant.text, Double.text, String.toList_ofList]
    exact startsConstant_numeral (takenAsNumeral_chars x hr)
  | string s =>
    simp [startsConstant, Constant.text, Constant.quoted, startsWith, strip?, Text.quote]
  | date t => simp [startsConstant, Constant.text, Constant.quoted, startsWith, strip?, Text.quote]
  | array items => simp [startsConstant, Constant.text, startsWith, strip?]

/-! ## Lists -/

theorem toList_intercalate_cons (sep s : String) (ss : List String) :
    (String.intercalate sep (s :: ss)).toList =
      s.toList ++ ss.flatMap fun t => sep.toList ++ t.toList := by
  induction ss generalizing s with
  | nil => simp
  | cons t ss ih =>
    rw [String.intercalate_cons_cons]
    simp [ih t]

/-- The elements of a list after its first one, as they are written. -/
def listTail (cs : List Constant) : List Char :=
  cs.flatMap fun c => ", ".toList ++ c.text.toList

theorem length_le_listTail (cs : List Constant) : cs.length ≤ (listTail cs).length := by
  induction cs with
  | nil => simp
  | cons c cs ih =>
    have h : (listTail (c :: cs)).length = 2 + c.text.toList.length + (listTail cs).length := by
      simp [listTail]
      omega
    rw [h, List.length_cons]
    omega

theorem toList_text_array (c : Constant) (cs : List Constant) :
    (Constant.array (c :: cs)).text.toList = '(' :: (c.text.toList ++ listTail cs ++ [')']) := by
  rw [Constant.text, Constant.texts_eq_map, List.map_cons, String.toList_append,
    String.toList_append, toList_intercalate_cons, List.flatMap_map]
  rfl

theorem endsLiteral_listTail (cs : List Constant) (rest : List Char) :
    EndsLiteral (listTail cs ++ ')' :: rest) := by
  cases cs <;> simp [EndsLiteral, listTail]

/-- An element is followed by a comma and further elements, or by the parenthesis that closes the
list. -/
theorem listItems_cons (size n : Nat) {c : Constant} (h : c.isScalar = true) {text r : List Char}
    (ht : skipSpaces text = c.text.toList ++ r) :
    (∀ s, r = ',' :: s → listItems size (n + 1) ⟨text, args⟩ =
      (listItems size n ⟨s, args⟩).map (c.reread.toValue :: ·)) ∧
    (∀ s, r = ')' :: s →
      listItems size (n + 1) ⟨text, args⟩ = .ok [c.reread.toValue] ⟨s, args⟩) := by
  have h₁ : (c.text.toList ++ r).isEmpty = false := by
    obtain ⟨d, t, h₁, -⟩ := exists_text_eq_cons c
    rw [h₁]
    rfl
  constructor
  · rintro s rfl
    have hr : EndsLiteral (',' :: s) := by simp [EndsLiteral]
    have h₂ := literal_text args size h hr
    simp only [listItems, Cursor.at, ht, h₁, Bool.false_eq_true, if_false, h₂, Step.bind_ok]
    rfl
  · rintro s rfl
    have hr : EndsLiteral (')' :: s) := by simp [EndsLiteral]
    have h₂ := literal_text args size h hr
    simp only [listItems, Cursor.at, ht, h₁, Bool.false_eq_true, if_false, h₂, Step.bind_ok]
    rfl

theorem listItems_text (size : Nat) {c : Constant} {cs : List Constant}
    (h : ∀ d ∈ c :: cs, d.isScalar = true) {n : Nat} (hn : cs.length < n) {text : List Char}
    (ht : skipSpaces text = c.text.toList ++ (listTail cs ++ ')' :: rest)) :
    listItems size n ⟨text, args⟩ =
      .ok ((c :: cs).map fun d => d.reread.toValue) ⟨rest, args⟩ := by
  induction cs generalizing c n text with
  | nil =>
    obtain ⟨n, rfl⟩ : ∃ m, n = m + 1 := ⟨n - 1, by omega⟩
    exact (listItems_cons args size n (h c (by simp)) ht).2 _ rfl
  | cons d cs ih =>
    obtain ⟨n, rfl⟩ : ∃ m, n = m + 1 := ⟨n - 1, by omega⟩
    simp only [List.length_cons] at hn
    have h₁ : skipSpaces (' ' :: (d.text.toList ++ (listTail cs ++ ')' :: rest))) = _ :=
      skipSpaces_text d _
    rw [(listItems_cons args size n (h c (by simp)) ht).1
        (' ' :: (d.text.toList ++ (listTail cs ++ ')' :: rest))) (by simp [listTail]),
      ih (fun e he => h e (List.mem_cons_of_mem _ he)) (by omega) h₁]
    rfl

theorem valueList_nil (size : Nat) (rest : List Char) (args : List Value) :
    valueList size ⟨')' :: rest, args⟩ = .ok (.array []) ⟨rest, args⟩ := rfl

theorem valueList_text (size : Nat) {c : Constant} {cs : List Constant}
    (h : ∀ d ∈ c :: cs, d.isScalar = true) :
    valueList size ⟨c.text.toList ++ (listTail cs ++ ')' :: rest), args⟩ =
      .ok (Constant.array (c :: cs)).reread.toValue ⟨rest, args⟩ := by
  have h₁ := length_le_listTail cs
  simp only [valueList, Cursor.at, skipSpaces_text, strip?_close_text]
  rw [listItems_text args size h (by simp only [List.length_append]; omega) (skipSpaces_text c _)]
  simp only [Constant.reread, Constant.toValue, Constant.toValues_eq_map,
    Constant.rereadEach_eq_map, List.map_map]
  rfl

theorem listAhead_text {c : Constant} (h : c.isScalar = true) {r : List Char}
    (hr : EndsLiteral r) : listAhead (c.text.toList ++ r) = true := by
  have h₁ := strip?_parenthesis_text h r
  simp [listAhead, skipSpaces_text, startsConstant_text c hr, startsWith, h₁]

/-- A written constant that is no array of arrays is read back after every operation. -/
theorem constantOrList_text (size : Nat) (op : Operation) {c : Constant} (h : c.isFlat = true)
    (hr : EndsLiteral rest) :
    constantOrList size op ⟨c.text.toList ++ rest, args⟩ = .ok c.reread.toValue ⟨rest, args⟩ := by
  by_cases h₁ : c.isScalar = true
  · simp only [constantOrList, constant, strip?_parenthesis_text h₁]
    exact literal_text args size h₁ hr
  · cases c with
    | array items =>
      cases items with
      | nil =>
        have h₂ : listAhead (')' :: rest) = true := rfl
        simp only [constantOrList, Constant.text, Constant.texts]
        simp [strip?, h₂, Cursor.at, valueList_nil, Constant.reread, Constant.toValue,
          Constant.rereadEach, Constant.toValues]
      | cons c cs =>
        have h₂ : ∀ d ∈ c :: cs, d.isScalar = true := List.all_eq_true.1 h
        have h₃ := listAhead_text (h₂ c (by simp)) (endsLiteral_listTail cs rest)
        rw [toList_text_array]
        simp only [List.cons_append, List.append_assoc, List.nil_append, constantOrList, strip?,
          if_true, h₃, or_true, Cursor.at]
        exact valueList_text args size h₂
    | _ => exact absurd rfl h₁

end RecordQuery.Format
