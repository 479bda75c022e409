import RecordQuery.Proofs.BoundSql

/-!
# Raw values are told by their texts

Raw values are compared by kind and by text, and that loses nothing: quotes inside a text are
doubled, no number has a comma in it, and so the text of a value shows where each of its elements
ends.

* `Number.text_eq_iff`: numbers that are written alike are the same, zeros of either sign included;
* `RawValue.Tells.forall₂_of_listText_eq`: lists that are written alike have the same elements;
* `RawValue.isEqual_value_iff`: raw values are equal if they are the same, and the text of a text is
  read back as one literal.
-/

namespace RecordQuery

/-! ## Numbers -/

/-- Doubles that are written alike differ in the sign of a zero at most. -/
theorem Double.same_of_chars_eq {x y : Double} (h : x.chars = y.chars) : x.same y = true := by
  obtain ⟨d, h₁, h₂⟩ := x.read?_chars
  obtain ⟨e, h₃, h₄⟩ := y.read?_chars
  rw [h, h₃, Option.some.injEq] at h₁
  rw [h₁, h₂, Number.finite.injEq] at h₄
  exact Double.unsignedZero_eq_iff.1 h₄

namespace Number

theorem toList_text_finite (x : Double) : (finite x).text.toList = x.chars := by
  rw [text, Double.text, String.toList_ofList]

/-- No text of a double is a word. -/
theorem text_finite_ne {x : Double} {s : String} {c : Char} (h : c ∈ s.toList)
    (hc : isDigit c = false ∧ c ∉ ['.', 'e', '+', '-']) : (finite x).text ≠ s := by
  rintro rfl
  rw [toList_text_finite] at h
  rcases Double.mem_chars h with h₁ | h₁
  · exact Bool.false_ne_true (hc.1.symm.trans h₁)
  · exact hc.2 h₁

theorem text_finite_ne_nan (x : Double) : (finite x).text ≠ nan.text :=
  text_finite_ne (c := 'N') (by decide) (by decide)

theorem text_finite_ne_infinite (x : Double) (negative : Bool) :
    (finite x).text ≠ (infinite negative).text := by
  cases negative <;> exact text_finite_ne (c := 'I') (by decide) (by decide)

/-- Numbers that are written alike are the same, and the same numbers are written alike. -/
theorem text_eq_iff {x y : Number} : x.text = y.text ↔ x.same y = true := by
  cases x with
  | nan =>
    cases y with
    | nan => exact iff_of_true rfl rfl
    | infinite negative => cases negative <;> decide
    | finite y => exact iff_of_false (text_finite_ne_nan y).symm nofun
  | infinite negative =>
    cases y with
    | nan => cases negative <;> decide
    | infinite negative' => cases negative <;> cases negative' <;> decide
    | finite y => exact iff_of_false (text_finite_ne_infinite y negative).symm nofun
  | finite x =>
    cases y with
    | nan => exact iff_of_false (text_finite_ne_nan x) nofun
    | infinite negative => exact iff_of_false (text_finite_ne_infinite x negative) nofun
    | finite y =>
      rw [← String.toList_inj, toList_text_finite, toList_text_finite]
      exact ⟨Double.same_of_chars_eq, Double.chars_congr⟩

theorem text_ne_nil (x : Number) : x.text.toList ≠ [] := by
  cases x with
  | nan => decide
  | infinite negative => cases negative <;> decide
  | finite x =>
    obtain ⟨d, m, e, -, -, h | h⟩ := x.chars_eq
    all_goals
      rw [toList_text_finite, h]
      exact List.cons_ne_nil _ _

end Number

namespace RawValue

open Format (listRest toList_intercalate_cons takeWhile_append_of_ends)

/-! ## Lists -/

/-- What an element of a list is followed by: a comma, or the parenthesis that closes the list. -/
def endsItem (c : Char) : Bool :=
  c == ',' || c == ')'

/-- The rest of a list after one of its elements. -/
def EndsItem (rest : List Char) : Prop :=
  ∃ c r, rest = c :: r ∧ endsItem c = true

theorem endsItem_listRest (texts : List String) : EndsItem (listRest texts) := by
  cases texts with
  | nil => exact ⟨')', [], rfl, rfl⟩
  | cons t texts => exact ⟨',', _, rfl, rfl⟩

theorem EndsItem.head? {rest : List Char} (h : EndsItem rest) :
    ∀ c ∈ rest.head?, endsItem c = true := by
  obtain ⟨c, r, rfl, hc⟩ := h
  simpa using hc

/-- The text of an element tells the element, up to `R`, and where it ends in a list. It is not
empty and does not start like the rest of a list. -/
structure Tells {α : Type} (f : α → String) (R : α → α → Prop) : Prop where
  opens : ∀ a, ∃ c r, (f a).toList = c :: r ∧ endsItem c = false
  cut : ∀ {a b r s}, EndsItem r → EndsItem s → (f a).toList ++ r = (f b).toList ++ s →
    R a b ∧ r = s

/-- A list as it is written. -/
def listText (texts : List String) : String :=
  "(" ++ String.intercalate ", " texts ++ ")"

theorem toList_listText_cons (t : String) (texts : List String) :
    (listText (t :: texts)).toList = '(' :: (t.toList ++ listRest texts) := by
  rw [listText, String.toList_append, String.toList_append, toList_intercalate_cons, listRest,
    List.append_assoc, List.append_assoc]
  rfl

namespace Tells

variable {α : Type} {f : α → String} {R : α → α → Prop}

theorem forall₂_of_listRest_eq (h : Tells f R) {as bs : List α}
    (he : listRest (as.map f) = listRest (bs.map f)) : List.Forall₂ R as bs := by
  induction as generalizing bs with
  | nil =>
    cases bs with
    | nil => exact .nil
    | cons b bs => exact absurd (List.cons.inj he).1 (by decide)
  | cons a as ih =>
    cases bs with
    | nil => exact absurd (List.cons.inj he).1 (by decide)
    | cons b bs =>
      simp only [listRest, List.map_cons, List.flatMap_cons, List.append_assoc,
        List.append_cancel_left_eq] at he
      obtain ⟨hab, hr⟩ := h.cut (endsItem_listRest _) (endsItem_listRest _) he
      exact .cons hab (ih hr)

/-- Lists that are written alike have the same elements. -/
theorem forall₂_of_listText_eq (h : Tells f R) {as bs : List α}
    (he : listText (as.map f) = listText (bs.map f)) : List.Forall₂ R as bs := by
  have hne : ∀ a as, listText [] ≠ listText (f a :: as) := by
    intro a as h₁
    obtain ⟨c, r, h₂, h₃⟩ := h.opens a
    rw [← String.toList_inj, toList_listText_cons, h₂] at h₁
    obtain rfl : ')' = c := (List.cons.inj (List.cons.inj h₁).2).1
    contradiction
  cases as with
  | nil =>
    cases bs with
    | nil => exact .nil
    | cons b bs => exact absurd he (hne b _)
  | cons a as =>
    cases bs with
    | nil => exact absurd he.symm (hne a _)
    | cons b bs =>
      rw [List.map_cons, List.map_cons, ← String.toList_inj, toList_listText_cons,
        toList_listText_cons] at he
      obtain ⟨hab, hr⟩ := h.cut (endsItem_listRest _) (endsItem_listRest _) (List.cons.inj he).2
      exact .cons hab (h.forall₂_of_listRest_eq hr)

end Tells

theorem tells_quoted : Tells quoted Eq where
  opens s := ⟨Text.quote, _, String.toList_ofList .., by decide⟩
  cut {s t r r'} hr hr' h := by
    have hq : ∀ {rest}, EndsItem rest → rest.head? ≠ some Text.quote := fun hrest hq =>
      absurd (hrest.head? _ hq) (by decide)
    simp only [quoted, String.toList_ofList, List.cons_append, List.append_assoc,
      List.nil_append] at h
    have h₁ := Text.undouble_double s.toList (hq hr)
    rw [(List.cons.inj h).2, Text.undouble_double t.toList (hq hr'), Option.some.injEq,
      Prod.mk.injEq, String.toList_inj] at h₁
    exact ⟨h₁.1.symm, h₁.2.symm⟩

theorem endsItem_of_mem_text (x : Number) {c : Char} (h : c ∈ x.text.toList) :
    endsItem c = false := by
  cases x with
  | nan => revert c; decide
  | infinite negative => cases negative <;> revert c <;> decide
  | finite x =>
    rw [Number.toList_text_finite] at h
    rw [endsItem, Bool.or_eq_false_iff, beq_eq_false_iff_ne, beq_eq_false_iff_ne]
    constructor
    all_goals
      rintro rfl
      exact absurd (Double.mem_chars h) (by decide)

/-- A number goes on up to the first comma or parenthesis. -/
theorem tells_number : Tells Number.text fun x y => x.same y = true where
  opens x := by
    obtain ⟨c, r, h⟩ := List.exists_cons_of_ne_nil x.text_ne_nil
    exact ⟨c, r, h, endsItem_of_mem_text x (h ▸ List.mem_cons_self)⟩
  cut {x y r s} hr hs h := by
    have hx : ∀ z : Number, ∀ c ∈ z.text.toList, (! endsItem c) = true := fun z c hc => by
      rw [endsItem_of_mem_text z hc, Bool.not_false]
    have hend : ∀ {rest}, EndsItem rest → ∀ c ∈ rest.head?, (! endsItem c) = false :=
      fun hrest c hc => by rw [hrest.head? c hc, Bool.not_true]
    obtain ⟨h₁, h₂⟩ := takeWhile_append_of_ends (hx x) (hend hr)
    obtain ⟨h₃, h₄⟩ := takeWhile_append_of_ends (hx y) (hend hs)
    rw [h] at h₁ h₂
    exact ⟨Number.text_eq_iff.1 (String.toList_inj.1 (h₁.symm.trans h₃)), h₂.symm.trans h₄⟩

/-! ## Raw values -/

/-- The same raw value: of one kind and with the same payload, element by element. Zeros of either
sign are the same, and not-a-number is the same as itself. -/
inductive Same : RawValue → RawValue → Prop
  | int {x y : Number} (h : x.same y = true) : Same (int x) (int y)
  | double {x y : Number} (h : x.same y = true) : Same (double x) (double y)
  | string (s : String) : Same (string s) (string s)
  | ints {xs ys : List Number} (h : List.Forall₂ (fun x y => x.same y = true) xs ys) :
      Same (ints xs) (ints ys)
  | strings (xs : List String) : Same (strings xs) (strings xs)

theorem quoted_injective {s t : String} (h : quoted s = quoted t) : s = t := by
  have hr : EndsItem [','] := ⟨',', [], rfl, rfl⟩
  exact (tells_quoted.cut hr hr (by rw [h])).1

theorem same_of_isEqual {a b : RawValue} (h : a.isEqual b = true) : Same a b := by
  obtain ⟨hk, ht⟩ := isEqual_iff.1 h
  cases a <;> cases b <;> try contradiction
  case int.int x y => exact .int (Number.text_eq_iff.1 ht)
  case double.double x y => exact .double (Number.text_eq_iff.1 ht)
  case string.string s t =>
    obtain rfl := quoted_injective ht
    exact .string s
  case ints.ints xs ys => exact .ints (tells_number.forall₂_of_listText_eq ht)
  case strings.strings xs ys =>
    have h₁ := tells_quoted.forall₂_of_listText_eq ht
    rw [List.forall₂_eq_eq_eq] at h₁
    obtain rfl := h₁
    exact .strings xs

theorem Same.text_eq {a b : RawValue} (h : Same a b) : a.text = b.text := by
  cases h with
  | int h => exact Number.text_eq_iff.2 h
  | double h => exact Number.text_eq_iff.2 h
  | string s => rfl
  | @ints xs ys h =>
    have h₁ : List.Forall₂ Eq (xs.map Number.text) (ys.map Number.text) := by
      rw [List.forall₂_map_left_iff, List.forall₂_map_right_iff]
      exact h.imp fun _ _ => Number.text_eq_iff.2
    rw [List.forall₂_eq_eq_eq] at h₁
    rw [text, text, h₁]
  | strings xs => rfl

/-- Raw values are equal exactly if they are the same. -/
theorem isEqual_iff_same {a b : RawValue} : a.isEqual b = true ↔ Same a b := by
  refine ⟨same_of_isEqual, fun h => isEqual_iff.2 ⟨?_, h.text_eq⟩⟩
  cases h <;> rfl

theorem equalOrNull_iff_same {a b : Option RawValue} :
    equalOrNull a b = true ↔ Option.Rel Same a b := by
  constructor
  · intro h
    cases a <;> cases b <;> try contradiction
    case none.none => exact .none
    case some.some => exact .some (same_of_isEqual h)
  · intro h
    cases h with
    | none => rfl
    | some h => exact isEqual_iff_same.2 h

/-- What a text stands for as one literal: it starts with a quote, a doubled quote stands for one,
and nothing follows the quote that closes it. -/
def literal? (t : String) : Option String :=
  match t.toList with
  | [] => none
  | c :: cs =>
    if c = Text.quote then
      match Text.undouble cs with
      | some (s, []) => some (.ofList s)
      | _ => none
    else none

/-- The literals are what texts are written as, and they stand for these. -/
theorem literal?_eq_some_iff {t s : String} : literal? t = some s ↔ (string s).text = t := by
  constructor
  · intro h
    cases ht : t.toList with
    | nil => simp [literal?, ht] at h
    | cons c cs =>
      by_cases hc : c = Text.quote
      · cases hs : Text.undouble cs with
        | none => simp [literal?, ht, hc, hs] at h
        | some r =>
          obtain ⟨s', rest⟩ := r
          cases rest with
          | nil =>
            obtain rfl : String.ofList s' = s := by simpa [literal?, ht, hc, hs] using h
            obtain ⟨rfl, -⟩ := Text.eq_double_of_undouble hs
            rw [← String.toList_inj, ht, hc, text, quoted, String.toList_ofList,
              String.toList_ofList]
            rfl
          | cons d rest => simp [literal?, ht, hc, hs] at h
      · simp [literal?, ht, hc] at h
  · rintro rfl
    have h : Text.undouble (Text.double s.toList ++ [Text.quote]) = some (s.toList, []) :=
      Text.undouble_double s.toList (by simp)
    simp [literal?, text, quoted, h]

/-- Two pieces of raw SQL that are single values are equal exactly if both values are null or the
same. The text of a text is one literal and stands for that text, and there are no other literals. -/
theorem isEqual_value_iff :
    (∀ a b : Option RawValue, (Qualifier.sql [.value a]).isEqual (.sql [.value b]) = true ↔
      Option.Rel Same a b) ∧
    ∀ t s : String, literal? t = some s ↔ (string s).text = t := by
  refine ⟨fun a b => ?_, fun t s => literal?_eq_some_iff⟩
  rw [← equalOrNull_iff_same]
  simp [Qualifier.isEqual, SqlPart.isEqual]

end RawValue

end RecordQuery
