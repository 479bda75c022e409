import RecordQuery.Proofs.Meaning

/-!
# Written constants of any depth

A constant without arrays in an array is read back after every relation, with its dates as texts. An
array that holds an array is written in the same way, but it is not read back: the elements of a
list are literals, so that the first inner array is refused. The refusal names its place, except
where the inner array comes first and the relation is not `IN`; the outer parenthesis is taken for
that of a cast there. `parse_text_keyValue` says all of this.
-/

namespace RecordQuery

open Format

namespace Constant

/-! ## Dates as texts -/

mutual

/-- The constant with each date replaced by its ISO form. -/
def datesAsTexts : Constant → Constant
  | date t => string t.isoText
  | array items => array (datesAsTextsEach items)
  | c => c

/-- The constants of a list with dates as their texts. -/
def datesAsTextsEach : List Constant → List Constant
  | [] => []
  | c :: cs => c.datesAsTexts :: datesAsTextsEach cs

end

mutual

/-- Apart from its dates, a constant is equal to the constant that its text stands for. -/
theorem isEqual_reread_datesAsTexts : ∀ c : Constant, c.reread.isEqual c.datesAsTexts = true
  | null => rfl
  | bool _ => isEqual_self _
  | number x => Double.same_iff.2 x.toInt_unsignedZero
  | string _ => isEqual_self _
  | date _ => isEqual_self _
  | array items => areEqual_rereadEach_datesAsTextsEach items

theorem areEqual_rereadEach_datesAsTextsEach :
    ∀ cs : List Constant, areEqual (rereadEach cs) (datesAsTextsEach cs) = true
  | [] => rfl
  | c :: cs => by
    rw [rereadEach, datesAsTextsEach, areEqual, isEqual_reread_datesAsTexts c,
      areEqual_rereadEach_datesAsTextsEach cs, Bool.and_self]

end

/-! ## The text before an inner array -/

/-- Elements of an array as they are written before another element. -/
def leadText (cs : List Constant) : List Char :=
  cs.flatMap fun c => c.text.toList ++ ", ".toList

theorem leadText_append_listTail (c d : Constant) (before after : List Constant) :
    c.text.toList ++ listTail (before ++ d :: after) =
      leadText (c :: before) ++ (d.text.toList ++ listTail after) := by
  induction before generalizing c with
  | nil => simp [leadText, listTail]
  | cons e before ih =>
    have h := ih e
    simp only [leadText, listTail, List.cons_append, List.flatMap_cons, List.append_assoc] at h ⊢
    rw [h]

/-- An array, written up to one of its elements and from there on. -/
theorem toList_text_array_append (before : List Constant) (d : Constant) (after : List Constant) :
    (array (before ++ d :: after)).text.toList =
      '(' :: (leadText before ++ (d.text.toList ++ (listTail after ++ [')']))) := by
  cases before with
  | nil =>
    rw [List.nil_append, toList_text_array]
    simp [leadText]
  | cons c before =>
    rw [List.cons_append, toList_text_array, leadText_append_listTail]
    simp

/-- An array with an array in it has a first one. -/
theorem exists_eq_of_isFlat_eq_false {c : Constant} (h : c.isFlat = false) :
    ∃ items inner after, c = array items ∧
      items = items.takeWhile isScalar ++ array inner :: after := by
  cases c with
  | array items =>
    have h₁ : items.takeWhile isScalar ++ items.dropWhile isScalar = items :=
      List.takeWhile_append_dropWhile
    have h₂ : items.dropWhile isScalar ≠ [] := by
      intro h₃
      rw [h₃, List.append_nil] at h₁
      rw [isFlat, ← h₁, List.all_takeWhile] at h
      contradiction
    obtain ⟨d, after, h₃⟩ := List.exists_cons_of_ne_nil h₂
    have h₄ : d.isScalar = false := by
      have h₅ := List.head?_dropWhile_not isScalar items
      rw [h₃] at h₅
      simpa using h₅
    cases d with
    | array inner => exact ⟨items, inner, after, rfl, by rw [← h₃, h₁]⟩
    | _ => contradiction
  | _ => contradiction

end Constant

namespace Format

variable {rest : List Char} (args : List Value)

/-! ## The refusal -/

/-- No literal starts with a parenthesis. -/
theorem literal_parenthesis (size : Nat) (r : List Char) :
    literal size ⟨'(' :: r, args⟩ =
      .fail (Cursor.message size "expected constant" ⟨'(' :: r, args⟩) := by
  have h₁ : startsNumeral ('(' :: r) = false := by
    cases r <;> rfl
  have h₂ : takeLiteralWord? ('(' :: r) = none := by
    simp [takeLiteralWord?, literalWords, stripKeyword?, strip?]
  simp [literal, h₁, h₂, Text.quote, Text.doubleQuote]

theorem skipSpaces_leadText (before : List Constant) (r : List Char) :
    skipSpaces (Constant.leadText before ++ '(' :: r) = Constant.leadText before ++ '(' :: r := by
  cases before with
  | nil => rfl
  | cons c before =>
    have h := skipSpaces_text c (", ".toList ++ (Constant.leadText before ++ '(' :: r))
    simpa [Constant.leadText] using h

/-- Literals are read one by one up to a parenthesis, which is refused at its place. -/
theorem listItems_nested (size : Nat) {before : List Constant}
    (h : ∀ d ∈ before, d.isScalar = true) {n : Nat} (hn : before.length < n) {text r : List Char}
    (ht : skipSpaces text = Constant.leadText before ++ '(' :: r) :
    listItems size n ⟨text, args⟩ =
      .fail (Cursor.message size "expected constant" ⟨'(' :: r, args⟩) := by
  induction before generalizing n text with
  | nil =>
    obtain ⟨n, rfl⟩ : ∃ m, n = m + 1 := ⟨n - 1, by omega⟩
    have ht' : skipSpaces text = '(' :: r := ht
    simp [listItems, Cursor.at, ht', literal_parenthesis, Step.bind, Step.fail]
  | cons c before ih =>
    obtain ⟨n, rfl⟩ : ∃ m, n = m + 1 := ⟨n - 1, by omega⟩
    simp only [List.length_cons] at hn
    have h₁ : skipSpaces text =
        c.text.toList ++ (',' :: ' ' :: (Constant.leadText before ++ '(' :: r)) := by
      rw [ht]
      simp [Constant.leadText]
    have h₂ : skipSpaces (' ' :: (Constant.leadText before ++ '(' :: r)) = _ :=
      skipSpaces_leadText before r
    rw [(listItems_cons args size n (h c (by simp)) h₁).1 _ rfl,
      ih (fun d hd => h d (List.mem_cons_of_mem _ hd)) (by omega) h₂]
    rfl

theorem length_le_leadText (cs : List Constant) : cs.length ≤ (Constant.leadText cs).length := by
  induction cs with
  | nil => simp
  | cons c cs ih =>
    simp only [Constant.leadText, List.flatMap_cons, List.length_append, List.length_cons] at ih ⊢
    have h : ", ".toList.length = 2 := rfl
    omega

theorem valueList_nested (size : Nat) {before : List Constant}
    (h : ∀ d ∈ before, d.isScalar = true) (r : List Char) :
    valueList size ⟨Constant.leadText before ++ '(' :: r, args⟩ =
      .fail (Cursor.message size "expected constant" ⟨'(' :: r, args⟩) := by
  have h₁ := skipSpaces_leadText before r
  have h₂ : strip? [')'] (Constant.leadText before ++ '(' :: r) = none := by
    cases before with
    | nil => rfl
    | cons c before =>
      have h₃ := strip?_close_text c (", ".toList ++ (Constant.leadText before ++ '(' :: r))
      simpa [Constant.leadText] using h₃
  have h₃ := length_le_leadText before
  simp only [valueList, Cursor.at, h₁, h₂]
  rw [listItems_nested args size h (by simp only [List.length_append]; omega) h₁]
  rfl

/-- An array with an inner array is taken for a list after `IN`, or if it starts with a literal. -/
theorem constantOrList_nested (size : Nat) {op : Operation} {before : List Constant}
    (h : ∀ d ∈ before, d.isScalar = true) (hb : before ≠ [] ∨ op = .known .isIn) (r : List Char) :
    constantOrList size op ⟨'(' :: (Constant.leadText before ++ '(' :: r), args⟩ =
      .fail (Cursor.message size "expected constant" ⟨'(' :: r, args⟩) := by
  have h₁ : op = .known .isIn ∨ listAhead (Constant.leadText before ++ '(' :: r) = true := by
    rcases hb with hb | hb
    · obtain ⟨c, before, rfl⟩ := List.exists_cons_of_ne_nil hb
      right
      have h₂ : EndsLiteral (", ".toList ++ (Constant.leadText before ++ '(' :: r)) := by
        simp [EndsLiteral]
      simpa [Constant.leadText] using listAhead_text (h c (by simp)) h₂
    · exact .inl hb
  simp only [constantOrList, strip?, if_true, if_pos h₁, Cursor.at]
  exact valueList_nested args size h r

/-- An array that starts with an inner array is taken for a cast, unless it stands after `IN`. -/
theorem constantOrList_cast (size : Nat) {op : Operation} (h : op ≠ .known .isIn) (r : List Char) :
    constantOrList size op ⟨'(' :: '(' :: r, args⟩ =
      .fail "expected class cast identifier after parenthesis" := by
  have h₁ : listAhead ('(' :: r) = false := by
    simp [listAhead, skipSpaces, isSpace, startsWith, strip?]
  have h₂ : takeName? (skipSpaces ('(' :: r)) = none := rfl
  simp [constantOrList, constant, strip?, h, h₁, Cursor.at, castClass, h₂, Step.bind, Step.fail]

/-- Where a constant is refused, so is the operand that starts with a parenthesis. -/
theorem afterOperation_fail (size : Nat) (key word : String) {r : List Char} {message : String}
    (h : constantOrList size (.ofToken word) ⟨'(' :: r, args⟩ = .fail message) :
    afterOperation size key word ⟨' ' :: '(' :: r, args⟩ = .fail message := by
  rw [afterOperation_of_startsConstant args size key word rfl (by decide) rfl, h]
  rfl

/-- Why a comparison with an array is refused that starts with the given elements and goes on with
an inner array. -/
def nestingFault (key : String) (r : Relation) (before : List Constant) : String :=
  if before.isEmpty = true ∧ r ≠ .isIn then "expected class cast identifier after parenthesis"
  else
    "expected constant at index " ++
      .ofList (digits (Text.unitCount ((comparison key r "(").toList ++ Constant.leadText before)))

theorem text_keyValue_array (key : String) (r : Relation) (items : List Constant) :
    (Qualifier.keyValue (.ofText key) (.known r) (.constant (.array items))).text =
      comparison key r (Constant.array items).text := by
  rw [Qualifier.text, Key.text_ofText]
  cases r <;> rfl

/-- A comparison with an array in an array is refused. -/
theorem LeftName.parse_nested {key : String} (hk : LeftName key) (r : Relation)
    {before : List Constant} (h : ∀ d ∈ before, d.isScalar = true) (inner after : List Constant) :
    Qualifier.parse (Qualifier.keyValue (.ofText key) (.known r)
        (.constant (.array (before ++ .array inner :: after)))).text [] =
      ⟨none, [.error (nestingFault key r before) []]⟩ := by
  rw [text_keyValue_array]
  refine hk.parse_comparison_fail r fun word hw => ?_
  obtain ⟨t, ht⟩ : ∃ t,
      (Constant.array inner).text.toList ++ (listTail after ++ [')']) = '(' :: t :=
    ⟨_, by simp [Constant.text]; rfl⟩
  have h₁ := Constant.toList_text_array_append before (.array inner) after
  rw [ht] at h₁
  rw [h₁]
  apply afterOperation_fail
  rw [hw, nestingFault]
  split
  next hb =>
    obtain rfl := List.isEmpty_iff.1 hb.1
    exact constantOrList_cast [] _ (by simpa using hb.2) t
  next hb =>
    have h₂ : before ≠ [] ∨ Operation.known r = .known .isIn := by
      by_cases hr : r = .isIn
      · exact .inr (by rw [hr])
      · exact .inl fun h₃ => hb ⟨by rw [h₃]; rfl, hr⟩
    rw [constantOrList_nested [] _ h h₂]
    have h₃ : (comparison key r (Constant.array (before ++ .array inner :: after)).text).toList =
        (comparison key r "(").toList ++ Constant.leadText before ++ '(' :: t := by
      rw [toList_comparison, toList_comparison, h₁]
      simp
    rw [Cursor.message, Cursor.index, h₃, Text.unitCount_append _ ('(' :: t), Nat.add_sub_cancel]
    rfl

end Format

/-- A written comparison with a constant of any depth. If no array is in an array it is read back,
with the ISO forms of dates in their places. Else it is refused, whatever follows the first inner
array. -/
theorem parse_text_keyValue {key : String} (hk : IsIdentifier key) (r : Relation) (c : Constant) :
    (c.isFlat = true → ∃ d,
      Qualifier.parse (Qualifier.keyValue (.ofText key) (.known r) (.constant c)).text [] =
        ⟨some (.keyValue (.ofText key) (.known r) (.constant d)), []⟩ ∧
      d.isEqual c.datesAsTexts = true) ∧
    (c.isFlat = false → ∃ items, c = .array items ∧
      Qualifier.parse (Qualifier.keyValue (.ofText key) (.known r) (.constant c)).text [] =
        ⟨none, [.error (nestingFault key r (items.takeWhile Constant.isScalar)) []]⟩) := by
  have h₁ := hk.readableRightKey.leftName
  constructor
  · intro hc
    have h₂ := (Legible.keyValue_ofText (v := .constant c) h₁ (readable_known r) hc).parse_text
    refine ⟨c.reread, ?_, c.isEqual_reread_datesAsTexts⟩
    rw [h₂, Qualifier.reread, Qualifier.rereadOperation_known, Key.text_ofText, Operand.reread]
  · intro hc
    obtain ⟨items, inner, after, rfl, h₂⟩ := Constant.exists_eq_of_isFlat_eq_false hc
    have h₃ : ∀ d ∈ items.takeWhile Constant.isScalar, d.isScalar = true :=
      List.all_eq_true.1 List.all_takeWhile
    have h₄ := h₁.parse_nested r h₃ inner after
    rw [← h₂] at h₄
    exact ⟨items, rfl, h₄⟩

/-- A date in a list, and a list in a list. -/
theorem parse_text_keyValue_lists :
    let flat : Constant := .array [.date ⟨0, by decide⟩, .null, .string "\x27"]
    let nested : Constant := .array [.string "x", .array [.array []], .null]
    (IsIdentifier "a" ∧ flat.isFlat = true ∧ nested.isFlat = false) ∧
      (∃ d, Qualifier.parse "a < (\x271970-01-01T00:00:00.000Z\x27, NULL, \x27\\\x27\x27)" [] =
          ⟨some (.keyValue (.ofText "a") (.known .lessThan) (.constant d)), []⟩ ∧
        d.isEqual flat.datesAsTexts = true) ∧
      ∃ items, nested = .array items ∧
        Qualifier.parse "a < (\x27x\x27, (()), NULL)" [] =
          ⟨none, [.error (nestingFault "a" .lessThan (items.takeWhile Constant.isScalar)) []]⟩ := by
  intro flat nested
  have h₁ : IsIdentifier "a" := ⟨by decide, by decide, by decide⟩
  have h₂ : flat.isFlat = true := rfl
  have h₃ : nested.isFlat = false := rfl
  have h₄ := (parse_text_keyValue h₁ .lessThan flat).1 h₂
  have h₅ := (parse_text_keyValue h₁ .lessThan nested).2 h₃
  rw [show (Qualifier.keyValue (.ofText "a") (.known .lessThan) (.constant flat)).text =
    "a < (\x271970-01-01T00:00:00.000Z\x27, NULL, \x27\\\x27\x27)" by decide +kernel] at h₄
  rw [show (Qualifier.keyValue (.ofText "a") (.known .lessThan) (.constant nested)).text =
    "a < (\x27x\x27, (()), NULL)" by decide +kernel] at h₅
  exact ⟨⟨h₁, h₂, h₃⟩, h₄, h₅⟩

/-- The written form of an array in an array is taken for a cast, and refused. -/
theorem parse_text_nested :
    (Qualifier.keyValue (.ofText "a") (.known .equalTo)
        (.constant (.array [.array [.string "x"]]))).text = "a = ((\x27x\x27))" ∧
      Qualifier.parse "a = ((\x27x\x27))" [] =
        ⟨none, [.error "expected class cast identifier after parenthesis" []]⟩ :=
  ⟨by decide +kernel, by rfl⟩

end RecordQuery
