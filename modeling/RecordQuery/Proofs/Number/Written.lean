import RecordQuery.Proofs.Number.Decimal

/-!
# Written numbers are read back

Whatever layout a double is written in, reading its text gives the double again (`read?_chars`);
only the sign of a zero is lost. `chars_eq` says what such a text looks like: a sign, a mantissa of
digits and points that starts with a digit, and an exponent or nothing. A `NumberText` is any text
of a number, written in the usual way, and is read as its decimal (`NumberText.read?_chars`).
-/

namespace RecordQuery

/-! ## Digits -/

theorem digitsValue_eq (n : Nat) (ds : List Char) : digitsValue n ds = Nat.ofDigitChars 10 ds n :=
  rfl

@[simp] theorem digitsValue_digits (n : Nat) : digitsValue 0 (digits n) = n :=
  Nat.ofDigitChars_ten_toDigits

theorem digitsValue_append (n : Nat) (ds es : List Char) :
    digitsValue n (ds ++ es) = digitsValue (digitsValue n ds) es :=
  Nat.ofDigitChars_append n

theorem digitsValue_replicate_zero (n k : Nat) :
    digitsValue n (List.replicate k '0') = n * 10 ^ k := by
  rw [digitsValue_eq, Nat.ofDigitChars_replicate_zero, Nat.mul_comm]

theorem isDigit_eq (c : Char) : isDigit c = c.isDigit := by
  simp [isDigit, Char.isDigit, Char.le_def]

theorem isDigit_of_mem_digits {n : Nat} {c : Char} (h : c ∈ digits n) : isDigit c = true := by
  rw [isDigit_eq]
  exact Nat.isDigit_of_mem_toDigits (by decide) (by decide) h

theorem digits_ne_nil (n : Nat) : digits n ≠ [] :=
  Nat.toDigits_ne_nil

theorem exists_eq_trimZeros_append (ds : List Char) :
    ∃ k, ds = trimZeros ds ++ List.replicate k '0' := by
  refine ⟨(ds.reverse.takeWhile (· = '0')).length, ?_⟩
  have h₁ : ds.reverse.takeWhile (· = '0')
      = List.replicate (ds.reverse.takeWhile (· = '0')).length '0' := by
    refine List.eq_replicate_of_mem fun c hc => ?_
    simpa using List.all_eq_true.1 (List.all_takeWhile (p := (· = '0'))) c hc
  have h₂ := congrArg List.reverse
    (List.takeWhile_append_dropWhile (p := (· = '0')) (l := ds.reverse))
  rw [List.reverse_append, List.reverse_reverse, h₁, List.reverse_replicate] at h₂
  exact h₂.symm

theorem isDigit_of_mem_trimZeros {n : Nat} {c : Char} (h : c ∈ trimZeros (digits n)) :
    isDigit c = true := by
  obtain ⟨k, hk⟩ := exists_eq_trimZeros_append (digits n)
  apply isDigit_of_mem_digits (n := n)
  rw [hk]
  exact List.mem_append_left _ h

theorem trimZeros_digits_ne_nil {n : Nat} (h : n ≠ 0) : trimZeros (digits n) ≠ [] := by
  intro h₁
  obtain ⟨k, hk⟩ := exists_eq_trimZeros_append (digits n)
  rw [h₁, List.nil_append] at hk
  apply h
  rw [← digitsValue_digits n, hk, digitsValue_replicate_zero, Nat.zero_mul]

/-! ## Reading a layout -/

theorem takeWhile_isDigit_append {ds r : List Char} (h₁ : ∀ c ∈ ds, isDigit c = true)
    (h₂ : ∀ c ∈ r.head?, isDigit c = false) : (ds ++ r).takeWhile isDigit = ds := by
  rw [List.takeWhile_append_of_pos h₁]
  cases r with
  | nil => simp
  | cons c r => simp [h₂ c rfl]

theorem dropWhile_isDigit_append {ds r : List Char} (h₁ : ∀ c ∈ ds, isDigit c = true)
    (h₂ : ∀ c ∈ r.head?, isDigit c = false) : (ds ++ r).dropWhile isDigit = r := by
  rw [List.dropWhile_append_of_pos h₁]
  cases r with
  | nil => simp
  | cons c r => simp [h₂ c rfl]

theorem takeSign_of_isDigit {d : Char} (h : isDigit d = true) (r : List Char) :
    takeSign (d :: r) = (false, d :: r) := by
  have h₁ : d ≠ '-' := by
    rintro rfl
    exact absurd h (by decide)
  have h₂ : d ≠ '+' := by
    rintro rfl
    exact absurd h (by decide)
  unfold takeSign
  split <;> simp_all

/-! ## Exponents -/

/-- An exponent as it may be written: a mark, a sign or nothing, and digits. -/
structure ExponentText where
  mark : Char
  sign : List Char
  magnitude : List Char
  isMark : mark = 'e' ∨ mark = 'E'
  isSign : sign = [] ∨ sign = ['+'] ∨ sign = ['-']
  magnitude_ne_nil : magnitude ≠ []
  isDigit_magnitude : ∀ c ∈ magnitude, isDigit c = true

namespace ExponentText

/-- The characters of an exponent. -/
def chars (e : ExponentText) : List Char :=
  e.mark :: (e.sign ++ e.magnitude)

/-- The whole number that the sign and the digits of an exponent give. -/
def value (e : ExponentText) : Int :=
  if e.sign = ['-'] then -(digitsValue 0 e.magnitude : Int) else digitsValue 0 e.magnitude

/-- A written exponent is read as its value. -/
theorem readExponent?_chars (e : ExponentText) : readExponent? e.chars = some e.value := by
  obtain ⟨mark, sign, ds, h₁, h₂, h₃, h₄⟩ := e
  have h₅ : takeSign (sign ++ ds) = (decide (sign = ['-']), ds) := by
    rcases h₂ with rfl | rfl | rfl
    · obtain ⟨d, ds, rfl⟩ := List.exists_cons_of_ne_nil h₃
      exact takeSign_of_isDigit (h₄ d (by simp)) ds
    · rfl
    · rfl
  have h₆ : ds.all isDigit = true := List.all_eq_true.2 h₄
  simp [chars, value, readExponent?, h₁, h₅, h₆, h₃]

/-- The one way in which the exponent of a double is written. -/
def ofInt (e : Int) : ExponentText where
  mark := 'e'
  sign := [if e < 0 then '-' else '+']
  magnitude := digits e.natAbs
  isMark := .inl rfl
  isSign := by split <;> simp
  magnitude_ne_nil := digits_ne_nil _
  isDigit_magnitude := fun _ hc => isDigit_of_mem_digits hc

theorem chars_ofInt (e : Int) : (ofInt e).chars = 'e' :: signedExponent e := by
  unfold signedExponent chars ofInt
  split <;> rfl

theorem value_ofInt (e : Int) : (ofInt e).value = e := by
  simp only [value, ofInt, digitsValue_digits]
  by_cases h : e < 0
  · rw [if_pos h, if_pos rfl]
    omega
  · rw [if_neg h, if_neg (by decide)]
    omega

end ExponentText

/-- An exponent as it is written, or nothing. -/
def writtenExponent : Option Int → List Char
  | none => []
  | some e => 'e' :: signedExponent e

theorem head?_writtenExponent (e : Option Int) : ∀ c ∈ (writtenExponent e).head?, c = 'e' := by
  cases e <;> simp [writtenExponent]

theorem mem_writtenExponent {e : Option Int} {c : Char} (h : c ∈ writtenExponent e) :
    isDigit c = true ∨ c ∈ ['e', '+', '-'] := by
  cases e with
  | none => contradiction
  | some e =>
    simp only [writtenExponent, signedExponent, List.mem_cons] at h
    rcases h with rfl | h | h
    · simp
    · right
      rw [h]
      split <;> simp
    · exact .inl (isDigit_of_mem_digits h)

theorem readExponent?_written (e : Option Int) :
    readExponent? (writtenExponent e) = some (e.getD 0) := by
  cases e with
  | none => rfl
  | some e =>
    rw [writtenExponent, ← ExponentText.chars_ofInt, ExponentText.readExponent?_chars,
      ExponentText.value_ofInt]
    rfl

/-! ## Numerals -/

/-- A number as it is laid out: the digits before a point, those after it unless there is no point,
and an exponent or nothing. -/
structure Numeral where
  whole : List Char
  fraction : Option (List Char)
  exponent : Option Int

namespace Numeral

/-- The characters of a number that is laid out. -/
def chars (m : Numeral) : List Char :=
  m.whole ++ (m.fraction.elim [] ('.' :: ·) ++ writtenExponent m.exponent)

/-- The digits without the point. -/
def mantissa (m : Numeral) : List Char :=
  m.whole ++ m.fraction.getD []

/-- The exponent of the power of ten that the value of the mantissa is multiplied by. -/
def scale (m : Numeral) : Int :=
  m.exponent.getD 0 - (m.fraction.getD []).length

/-- The numeral stands for `0.ds * 10 ^ point`: there are zeros before and after `ds` at most. -/
def Shows (m : Numeral) (ds : List Char) (point : Int) : Prop :=
  m.whole ≠ [] ∧ ∃ i j, m.mantissa = List.replicate i '0' ++ (ds ++ List.replicate j '0') ∧
    m.scale = point - ds.length - j

/-- Every layout of digits is a numeral that stands for them. -/
theorem exists_layOut_eq (layout : NumberLayout) {ds : List Char} (point : Int) (h : ds ≠ []) :
    ∃ m : Numeral, layOut layout ds point = m.chars ∧ m.Shows ds point := by
  unfold layOut
  split
  next =>
    match ds, h with
    | [c], _ =>
      refine ⟨⟨[c], none, some (point - 1)⟩, rfl, by simp, 0, 0, rfl, ?_⟩
      simp [scale]
    | c :: c' :: ds, _ =>
      refine ⟨⟨[c], some (c' :: ds), some (point - 1)⟩, rfl, by simp, 0, 0, by simp [mantissa], ?_⟩
      simp only [scale, Option.getD_some, List.length_cons]
      omega
  next =>
    split
    next hp =>
      refine ⟨⟨['0'], some (List.replicate (-point).toNat '0' ++ ds), none⟩, ?_, by simp,
        (-point).toNat + 1, 0, ?_, ?_⟩
      · simp [chars, writtenExponent]
      · simp [mantissa, List.replicate_succ]
      · simp only [scale, Option.getD_some, Option.getD_none, List.length_append,
          List.length_replicate]
        omega
    next hp =>
      dsimp only
      split
      next hn =>
        refine ⟨⟨ds ++ List.replicate (point.toNat - ds.length) '0', none, none⟩, ?_, by simp [h],
          0, point.toNat - ds.length, ?_, ?_⟩
        · simp [chars, writtenExponent]
        · simp [mantissa]
        · simp only [scale, Option.getD_none, List.length_nil]
          omega
      next hn =>
        refine ⟨⟨ds.take point.toNat, some (ds.drop point.toNat), none⟩, ?_, ?_, 0, 0, ?_, ?_⟩
        · simp [chars, writtenExponent]
        · rw [Ne, List.take_eq_nil_iff]
          rintro (h₁ | h₁)
          · omega
          · exact h h₁
        · simp [mantissa]
        · simp only [scale, Option.getD_some, Option.getD_none, List.length_drop]
          omega

theorem Shows.isDigit {m : Numeral} {ds : List Char} {point : Int} (h : m.Shows ds point)
    (hd : ∀ c ∈ ds, isDigit c = true) : ∀ c ∈ m.mantissa, isDigit c = true := by
  obtain ⟨-, i, j, h₁, -⟩ := h
  intro c hc
  rw [h₁, List.mem_append, List.mem_append] at hc
  have h₂ : ∀ k, c ∈ List.replicate k '0' → RecordQuery.isDigit c = true := by
    intro k hk
    rw [List.eq_of_mem_replicate hk]
    decide
  rcases hc with hc | hc | hc
  · exact h₂ i hc
  · exact hd c hc
  · exact h₂ j hc

end Numeral

namespace Decimal

variable {text : List Char} {negative : Bool}

/-- Digits, with a point after some of them or not, and an exponent are read as a decimal. -/
theorem read?_parts {whole tail : List Char} {fraction : Option (List Char)} {e : Int}
    (hs : takeSign text = (negative, whole ++ (fraction.elim [] ('.' :: ·) ++ tail)))
    (h₁ : ∀ c ∈ whole ++ fraction.getD [], isDigit c = true) (h₂ : whole ≠ [])
    (h₃ : ∀ c ∈ tail.head?, isDigit c = false ∧ c ≠ '.') (h₄ : readExponent? tail = some e) :
    read? text = some ⟨negative, digitsValue 0 (whole ++ fraction.getD []),
      e - (fraction.getD []).length⟩ := by
  have h₅ : whole.isEmpty = false := List.isEmpty_eq_false_iff.2 h₂
  have h₆ : ∀ c ∈ whole, isDigit c = true := fun c hc => h₁ c (List.mem_append_left _ hc)
  have h₇ : ∀ c ∈ tail.head?, isDigit c = false := fun c hc => (h₃ c hc).1
  cases fraction with
  | none =>
    have hs' : takeSign text = (negative, whole ++ tail) := hs
    simp only [read?, hs', takeWhile_isDigit_append h₆ h₇, dropWhile_isDigit_append h₆ h₇, h₅]
    split
    next r => exact absurd rfl (h₃ '.' rfl).2
    next => simp [h₄, digitsValue]
  | some fraction =>
    have hs' : takeSign text = (negative, whole ++ ('.' :: (fraction ++ tail))) := hs
    have h₈ : ∀ c ∈ fraction, isDigit c = true := fun c hc => h₁ c (List.mem_append_right _ hc)
    have h₉ : ∀ c ∈ ('.' :: (fraction ++ tail)).head?, isDigit c = false := by
      simp only [List.head?_cons, Option.mem_def, Option.some.injEq, forall_eq']
      decide
    simp only [read?, hs', takeWhile_isDigit_append h₆ h₉, dropWhile_isDigit_append h₆ h₉,
      takeWhile_isDigit_append h₈ h₇, dropWhile_isDigit_append h₈ h₇, h₅, h₄]
    simp [digitsValue_append]

theorem read?_numeral {m : Numeral} (hs : takeSign text = (negative, m.chars))
    (h₁ : ∀ c ∈ m.mantissa, isDigit c = true) (h₂ : m.whole ≠ []) :
    read? text = some ⟨negative, digitsValue 0 m.mantissa, m.scale⟩ := by
  refine read?_parts hs h₁ h₂ (fun c hc => ?_) (readExponent?_written m.exponent)
  rw [head?_writtenExponent m.exponent c hc]
  decide

/-- The zeros at the end of a coefficient can be left to the exponent. -/
theorem toNumber_trimZeros (d : Decimal) :
    toNumber ⟨d.negative, digitsValue 0 (trimZeros (digits d.coefficient)),
      (digits d.coefficient).length + d.exponent - (trimZeros (digits d.coefficient)).length⟩
      = d.toNumber := by
  obtain ⟨k, hk⟩ := exists_eq_trimZeros_append (digits d.coefficient)
  have h₁ : d.coefficient = digitsValue 0 (trimZeros (digits d.coefficient)) * 10 ^ k := by
    rw [← digitsValue_replicate_zero, ← digitsValue_append, ← hk, digitsValue_digits]
  have h₂ := congrArg List.length hk
  rw [List.length_append, List.length_replicate] at h₂
  rw [← toNumber_withZeros _ k]
  congr 1
  simp only [withZeros, ← h₁]
  congr 1
  omega

/-- The zeros that a numeral shows around its digits do not count. -/
theorem toNumber_numeral {m : Numeral} {ds : List Char} {point : Int} (h : m.Shows ds point) :
    toNumber ⟨negative, digitsValue 0 m.mantissa, m.scale⟩ =
      toNumber ⟨negative, digitsValue 0 ds, point - ds.length⟩ := by
  obtain ⟨-, i, j, h₁, h₂⟩ := h
  rw [h₁, h₂, digitsValue_append, digitsValue_append, digitsValue_replicate_zero,
    digitsValue_replicate_zero, Nat.zero_mul]
  exact toNumber_withZeros ⟨negative, digitsValue 0 ds, point - ds.length⟩ j

/-- A decimal is read back from every layout of its digits. -/
theorem read?_layOut {layout : NumberLayout} {ds : List Char} {point : Int}
    (hs : takeSign text = (negative, layOut layout ds point))
    (h₁ : ∀ c ∈ ds, isDigit c = true) (h₂ : ds ≠ []) :
    ∃ d, read? text = some d ∧
      d.toNumber = toNumber ⟨negative, digitsValue 0 ds, point - ds.length⟩ := by
  obtain ⟨m, h₃, h₄⟩ := Numeral.exists_layOut_eq layout point h₂
  rw [h₃] at hs
  exact ⟨_, read?_numeral hs (h₄.isDigit h₁) h₄.1, toNumber_numeral h₄⟩

end Decimal

/-! ## Numbers as they may be written -/

/-- A number as it may be written: a minus sign or nothing, at least one digit, a point with further
digits or nothing, and an exponent or nothing. -/
structure NumberText where
  negative : Bool
  whole : List Char
  fraction : Option (List Char)
  exponent : Option ExponentText
  whole_ne_nil : whole ≠ []
  isDigit_mantissa : ∀ c ∈ whole ++ fraction.getD [], isDigit c = true

namespace NumberText

/-- The characters of a number behind its minus sign. -/
def unsignedChars (t : NumberText) : List Char :=
  t.whole ++ (t.fraction.elim [] ('.' :: ·) ++ t.exponent.elim [] ExponentText.chars)

/-- The characters of a number. -/
def chars (t : NumberText) : List Char :=
  if t.negative then '-' :: t.unsignedChars else t.unsignedChars

/-- A number as a text. -/
def text (t : NumberText) : String :=
  .ofList t.chars

/-- The decimal that is written. -/
def decimal (t : NumberText) : Decimal where
  negative := t.negative
  coefficient := digitsValue 0 (t.whole ++ t.fraction.getD [])
  exponent := t.exponent.elim 0 ExponentText.value - (t.fraction.getD []).length

theorem exists_unsignedChars_eq_cons (t : NumberText) :
    ∃ d r, t.unsignedChars = d :: r ∧ isDigit d = true := by
  obtain ⟨d, ds, h⟩ := List.exists_cons_of_ne_nil t.whole_ne_nil
  exact ⟨d, _, by rw [unsignedChars, h]; rfl, t.isDigit_mantissa d (by simp [h])⟩

theorem takeSign_chars (t : NumberText) : takeSign t.chars = (t.negative, t.unsignedChars) := by
  unfold chars
  split
  next h => rw [h]; rfl
  next h =>
    obtain ⟨d, r, h₁, h₂⟩ := t.exists_unsignedChars_eq_cons
    rw [h₁, takeSign_of_isDigit h₂, Bool.eq_false_iff.2 h]

/-- A number is read as the decimal that is written. -/
theorem read?_chars (t : NumberText) : Decimal.read? t.chars = some t.decimal := by
  refine Decimal.read?_parts t.takeSign_chars t.isDigit_mantissa t.whole_ne_nil ?_ ?_
  · cases t.exponent with
    | none => simp
    | some e =>
      simp only [Option.elim_some, ExponentText.chars, List.head?_cons, Option.mem_def,
        Option.some.injEq, forall_eq']
      rcases e.isMark with h | h <;> rw [h] <;> decide
  · cases t.exponent with
    | none => rfl
    | some e => exact e.readExponent?_chars

end NumberText

/-! ## Reading a double -/

/-- The shape of a layout: a mantissa of digits and points that starts with a digit, and an exponent
or nothing. -/
theorem layOut_eq {ds : List Char} (layout : NumberLayout) (point : Int)
    (h₁ : ∀ c ∈ ds, isDigit c = true) (h₂ : ds ≠ []) :
    ∃ d m e, layOut layout ds point = d :: m ++ writtenExponent e ∧ isDigit d = true ∧
      ∀ c ∈ m, isDigit c = true ∨ c = '.' := by
  obtain ⟨⟨whole, fraction, e⟩, h₃, h₄⟩ := Numeral.exists_layOut_eq layout point h₂
  have h₅ := h₄.isDigit h₁
  obtain ⟨d, whole, rfl⟩ := List.exists_cons_of_ne_nil h₄.1
  refine ⟨d, whole ++ fraction.elim [] ('.' :: ·), e, by simp [h₃, Numeral.chars], ?_, ?_⟩
  · exact h₅ d (by simp [Numeral.mantissa])
  · intro c hc
    cases fraction with
    | none => exact .inl (h₅ c (List.mem_cons_of_mem _ hc))
    | some fraction =>
      rcases List.mem_append.1 hc with hc | hc
      · exact .inl (h₅ c (by simp [Numeral.mantissa, hc]))
      · rcases List.mem_cons.1 hc with rfl | hc
        · exact .inr rfl
        · exact .inl (h₅ c (by simp [Numeral.mantissa, hc]))

namespace Double

/-- The double with the one sign that zero is written with. -/
def unsignedZero (x : Double) : Double :=
  if x.units = 0 then zero false else x

theorem toInt_unsignedZero (x : Double) : x.unsignedZero.toInt = x.toInt := by
  unfold unsignedZero
  split
  next h => simp [toInt, zero, h]
  next => rfl

/-- Without the sign of zero, doubles of one size are the same. -/
theorem unsignedZero_eq_iff {x y : Double} :
    x.unsignedZero = y.unsignedZero ↔ x.same y = true := by
  constructor
  · intro h
    rw [same_iff, ← x.toInt_unsignedZero, h, y.toInt_unsignedZero]
  · intro h
    have h₁ := units_eq_of_same h
    unfold unsignedZero
    rw [h₁]
    split
    next => rfl
    next h₂ =>
      -- the sign of a number that is not zero shows
      have h₃ := same_iff.1 h
      unfold toInt at h₃
      refine ext_units ?_ h₁
      cases hx : x.negative <;> cases hy : y.negative <;> simp [hx, hy] at h₃ ⊢ <;> omega

theorem chars_unsignedZero (x : Double) : x.unsignedZero.chars = x.chars := by
  unfold unsignedZero
  split
  next h =>
    have h₁ : (zero false).units = 0 := rfl
    simp only [chars, h, h₁, if_true]
  next => rfl

/-- The text of a double: a minus sign or nothing, a mantissa that starts with a digit, and an
exponent or nothing. -/
theorem chars_eq (x : Double) :
    ∃ d m e, isDigit d = true ∧ (∀ c ∈ m, isDigit c = true ∨ c = '.') ∧
      (x.chars = d :: m ++ writtenExponent e ∨ x.chars = '-' :: d :: m ++ writtenExponent e) := by
  unfold chars
  split
  next => exact ⟨'0', [], none, by decide, by simp, .inl rfl⟩
  next h =>
    have hds := trimZeros_digits_ne_nil (coefficient_shortest_ne_zero h)
    obtain ⟨d, m, e, h₁, h₂, h₃⟩ := layOut_eq numberLayout
      ((digits x.shortest.coefficient).length + x.shortest.exponent)
      (fun c hc => isDigit_of_mem_trimZeros hc) hds
    refine ⟨d, m, e, h₂, h₃, ?_⟩
    dsimp only
    rw [h₁]
    split
    next => exact .inr rfl
    next => exact .inl rfl

/-- There is nothing but digits, points, signs and the mark of an exponent in the text of a
double. -/
theorem mem_chars {x : Double} {c : Char} (h : c ∈ x.chars) :
    isDigit c = true ∨ c ∈ ['.', 'e', '+', '-'] := by
  obtain ⟨d, m, e, h₁, h₂, h₃⟩ := x.chars_eq
  have h₄ : c = '-' ∨ c = d ∨ c ∈ m ∨ c ∈ writtenExponent e := by
    rcases h₃ with h₃ | h₃
    · exact .inr (by simpa [h₃, or_assoc] using h)
    · simpa [h₃, or_assoc] using h
  rcases h₄ with rfl | rfl | h₄ | h₄
  · simp
  · exact .inl h₁
  · exact (h₂ c h₄).imp_right (by simp +contextual)
  · exact (mem_writtenExponent h₄).imp_right (by simp +contextual)

theorem takeSign_chars {x : Double} (hx : x.units ≠ 0) :
    takeSign x.chars = (x.negative, layOut numberLayout (trimZeros (digits x.shortest.coefficient))
      ((digits x.shortest.coefficient).length + x.shortest.exponent)) := by
  have hds := trimZeros_digits_ne_nil (coefficient_shortest_ne_zero hx)
  rw [chars, if_neg hx]
  dsimp only
  split
  next h => simp [takeSign, h]
  next h =>
    obtain ⟨d, m, e, h₁, h₂, -⟩ := layOut_eq numberLayout
      ((digits x.shortest.coefficient).length + x.shortest.exponent)
      (fun c hc => isDigit_of_mem_trimZeros hc) hds
    rw [h₁, List.cons_append, takeSign_of_isDigit h₂]
    simp [h]

/-- Reading the text of a double gives the double back, apart from the sign of a zero. -/
theorem read?_chars (x : Double) :
    ∃ d, Decimal.read? x.chars = some d ∧ d.toNumber = .finite x.unsignedZero := by
  by_cases hx : x.units = 0
  · refine ⟨⟨false, 0, 0⟩, ?_, ?_⟩
    · rw [chars, if_pos hx]
      decide
    · rw [unsignedZero, if_pos hx]
      exact if_pos rfl
  · have hds := trimZeros_digits_ne_nil (coefficient_shortest_ne_zero hx)
    have hdigit : ∀ c ∈ trimZeros (digits x.shortest.coefficient), isDigit c = true :=
      fun c hc => isDigit_of_mem_trimZeros hc
    obtain ⟨d, h₁, h₂⟩ := Decimal.read?_layOut (takeSign_chars hx) hdigit hds
    refine ⟨d, h₁, ?_⟩
    rw [h₂, unsignedZero, if_neg hx, ← negative_shortest, Decimal.toNumber_trimZeros,
      toNumber_shortest]

end Double

end RecordQuery
