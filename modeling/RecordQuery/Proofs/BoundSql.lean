import RecordQuery.Proofs.Format.Accepted
import RecordQuery.Proofs.Qualifier.Alike
import RecordQuery.Proofs.Qualifier.Binding

/-!
# Raw SQL with bound values

Raw text in SQL is written with a backslash before the characters that mean something there, but
the text of a bound value is written as it is. `IsSqlText` says what a text amounts to in the body
of raw SQL: with how many placeholders it can be read there, if it can. Bound raw SQL is read back
exactly if the texts that were bound to it are such texts themselves, without placeholders:
`isSqlText_boundTexts_iff`. A text that is not can close the body and go on with another condition:
`parse_boundSql_injected`.
-/

namespace RecordQuery

namespace Format

variable {n : Nat} {c : Char} {cs : List Char}

/-! ## Texts in the body of raw SQL -/

/-- A text that can stand in the body of raw SQL as it is, with a number of placeholders in it:
characters that mean nothing there, others with a backslash before them, and names after a dollar
sign. -/
inductive IsSqlText : Nat → List Char → Prop
  | nil : IsSqlText 0 []
  | plain {n : Nat} {c : Char} {cs : List Char} (h₁ : SqlPart.needsEscape c = false)
      (h₂ : IsSqlText n cs) : IsSqlText n (c :: cs)
  | escaped {n : Nat} {c : Char} {cs : List Char} (h₁ : SqlPart.needsEscape c = true)
      (h₂ : IsSqlText n cs) : IsSqlText n (Text.backslash :: c :: cs)
  | placeholder {n : Nat} {name : String} {cs : List Char} (h₁ : IsName name) (h₂ : EndsName cs)
      (h₃ : IsSqlText n cs) : IsSqlText (n + 1) ('$' :: (name.toList ++ cs))

theorem isSqlText_plain_cons_iff (h : SqlPart.needsEscape c = false) :
    IsSqlText n (c :: cs) ↔ IsSqlText n cs := by
  constructor
  · intro h₁
    cases h₁ with
    | plain _ h₂ => exact h₂
    | escaped _ _ => contradiction
    | placeholder _ _ _ => contradiction
  · exact .plain h

theorem isSqlText_backslash_cons_iff :
    IsSqlText n (Text.backslash :: c :: cs) ↔ SqlPart.needsEscape c = true ∧ IsSqlText n cs := by
  constructor
  · intro h
    cases h with
    | plain h₁ _ => contradiction
    | escaped h₁ h₂ => exact ⟨h₁, h₂⟩
  · exact fun h => .escaped h.1 h.2

theorem isSqlText_placeholder_iff {name : String} (hn : IsName name) (hr : EndsName cs) :
    IsSqlText n ('$' :: (name.toList ++ cs)) ↔ ∃ m, n = m + 1 ∧ IsSqlText m cs := by
  constructor
  · intro h
    generalize hs : name.toList ++ cs = s at h
    cases h with
    | plain h₁ _ => contradiction
    | @placeholder m name' cs' h₁ h₂ h₃ =>
      have h₄ := takeName?_append hn hr
      rw [hs, takeName?_append h₁ h₂] at h₄
      obtain ⟨-, rfl⟩ := Prod.mk.inj (Option.some.inj h₄)
      exact ⟨m, rfl, h₃⟩
  · rintro ⟨m, rfl, h⟩
    exact .placeholder hn hr h

theorem isSqlText_escape_append_iff (raws : List Char) :
    IsSqlText n (Text.escape SqlPart.needsEscape raws ++ cs) ↔ IsSqlText n cs := by
  induction raws with
  | nil => rfl
  | cons c raws ih =>
    rw [Text.escape]
    cases h : SqlPart.needsEscape c with
    | true => rw [if_pos rfl, List.cons_append, List.cons_append, isSqlText_backslash_cons_iff, ih,
        and_iff_right h]
    | false => rw [if_neg Bool.false_ne_true, List.cons_append, isSqlText_plain_cons_iff h, ih]

/-- A text without placeholders is what some raw text is written as. -/
theorem isSqlText_zero_iff :
    IsSqlText 0 cs ↔ ∃ raws, Text.escape SqlPart.needsEscape raws = cs := by
  constructor
  · intro h
    generalize hn : 0 = n at h
    induction h with
    | nil => exact ⟨[], rfl⟩
    | @plain n c cs h₁ _ ih =>
      obtain ⟨raws, rfl⟩ := ih hn
      exact ⟨c :: raws, by simp [Text.escape, h₁]⟩
    | @escaped n c cs h₁ _ ih =>
      obtain ⟨raws, rfl⟩ := ih hn
      exact ⟨c :: raws, by simp [Text.escape, h₁]⟩
    | placeholder _ _ _ _ => contradiction
  · rintro ⟨raws, rfl⟩
    have h : IsSqlText 0 (Text.escape SqlPart.needsEscape raws ++ []) :=
      (isSqlText_escape_append_iff raws).2 .nil
    rwa [List.append_nil] at h

/-- A name has no break in it, so that it does not reach into what starts with one. -/
theorem IsName.exists_of_append_eq {name : String} (hn : IsName name) {v rest : List Char}
    (hr : EndsName rest) (h : v ++ rest = name.toList ++ cs) :
    ∃ u, v = name.toList ++ u ∧ cs = u ++ rest := by
  rcases List.append_eq_append_iff.1 h with ⟨u, hu, hc⟩ | ⟨u, hu, hc⟩
  · cases u with
    | nil => exact ⟨[], by simpa using hu.symm, by simpa using hc.symm⟩
    | cons d u =>
      have h₁ : isBreak d = false := hn.noBreak d (by simp [hu])
      have h₂ : isBreak d = true := hr d (by simp [hc])
      rw [h₁] at h₂
      contradiction
  · exact ⟨u, hu, hc⟩

theorem EndsName.of_append {u rest : List Char} (h : EndsName (u ++ rest)) : EndsName u := by
  cases u with
  | nil => exact fun c hc => by contradiction
  | cons c u => exact h

/-- A text is cut where it goes on with a character that means nothing, and that would end the name
of a placeholder if there is any. -/
theorem IsSqlText.split {v rest : List Char} (h : IsSqlText n (v ++ rest))
    (hr : ∀ c ∈ rest.head?, SqlPart.needsEscape c = false) (hb : n = 0 ∨ EndsName rest) :
    ∃ k m, n = k + m ∧ IsSqlText k v ∧ IsSqlText m rest := by
  generalize hs : v ++ rest = s at h
  induction h generalizing v with
  | nil =>
    obtain ⟨rfl, rfl⟩ := List.append_eq_nil_iff.1 hs
    exact ⟨0, 0, rfl, .nil, .nil⟩
  | @plain n c cs h₁ h₂ ih =>
    cases v with
    | nil =>
      obtain rfl : rest = c :: cs := hs
      exact ⟨0, n, by omega, .nil, .plain h₁ h₂⟩
    | cons d v =>
      obtain ⟨rfl, ht⟩ := List.cons.inj hs
      obtain ⟨k, m, hk, h₃, h₄⟩ := ih hb ht
      exact ⟨k, m, hk, .plain h₁ h₃, h₄⟩
  | @escaped n c cs h₁ h₂ ih =>
    match v with
    | [] =>
      obtain rfl : rest = Text.backslash :: c :: cs := hs
      exact absurd (hr _ rfl) (by decide)
    | [d] =>
      -- the text would be cut between the backslash and what it stands before
      obtain ⟨-, rfl⟩ := List.cons.inj hs
      rw [hr c rfl] at h₁
      contradiction
    | d :: e :: v =>
      obtain ⟨rfl, ht⟩ := List.cons.inj hs
      obtain ⟨rfl, hu⟩ := List.cons.inj ht
      obtain ⟨k, m, hk, h₃, h₄⟩ := ih hb hu
      exact ⟨k, m, hk, .escaped h₁ h₃, h₄⟩
  | @placeholder n name cs h₁ h₂ h₃ ih =>
    have hb : EndsName rest := hb.resolve_left (by omega)
    cases v with
    | nil =>
      obtain rfl : rest = '$' :: (name.toList ++ cs) := hs
      exact absurd (hr _ rfl) (by decide)
    | cons d v =>
      obtain ⟨rfl, ht⟩ := List.cons.inj hs
      obtain ⟨u, rfl, rfl⟩ := h₁.exists_of_append_eq hb ht
      obtain ⟨k, m, hk, h₄, h₅⟩ := ih (.inr hb) rfl
      exact ⟨k + 1, m, by omega, .placeholder h₁ h₂.of_append h₄, h₅⟩

theorem isSqlText_zero_append_iff {v rest : List Char}
    (hr : ∀ c ∈ rest.head?, SqlPart.needsEscape c = false) :
    IsSqlText 0 (v ++ rest) ↔ IsSqlText 0 v ∧ IsSqlText 0 rest := by
  constructor
  · intro h
    obtain ⟨k, m, hk, h₁, h₂⟩ := h.split hr (.inl rfl)
    obtain ⟨rfl, rfl⟩ : k = 0 ∧ m = 0 := by omega
    exact ⟨h₁, h₂⟩
  · rintro ⟨h₁, h₂⟩
    obtain ⟨raws, rfl⟩ := isSqlText_zero_iff.1 h₁
    exact (isSqlText_escape_append_iff raws).2 h₂

theorem isSqlText_of_plain (h : ∀ c ∈ cs, SqlPart.needsEscape c = false) : IsSqlText 0 cs := by
  induction cs with
  | nil => exact .nil
  | cons c cs ih =>
    obtain ⟨h₁, h₂⟩ := List.forall_mem_cons.1 h
    exact .plain h₁ (ih h₂)

/-! ## Texts of values -/

theorem isSqlText_zero_cons_iff :
    IsSqlText 0 (c :: cs) ↔ SqlPart.needsEscape c = false ∧ IsSqlText 0 cs ∨
      c = Text.backslash ∧ ∃ d ds, cs = d :: ds ∧ SqlPart.needsEscape d = true ∧ IsSqlText 0 ds := by
  constructor
  · intro h
    cases h with
    | plain h₁ h₂ => exact .inl ⟨h₁, h₂⟩
    | escaped h₁ h₂ => exact .inr ⟨rfl, _, _, rfl, h₁, h₂⟩
  · rintro (⟨h₁, h₂⟩ | ⟨rfl, d, ds, rfl, h₁, h₂⟩)
    · exact .plain h₁ h₂
    · exact .escaped h₁ h₂

theorem double_cons_of_ne {d : Char} (h : d ≠ Text.quote) (ds : List Char) :
    Text.double (d :: ds) = d :: Text.double ds := by
  rw [Text.double, if_neg h]

theorem needsEscape_quote : SqlPart.needsEscape Text.quote = false := by
  decide

/-- Quotes mean nothing in raw SQL, so that it does not count how often they are written. -/
theorem isSqlText_double_iff : ∀ s : List Char, IsSqlText 0 (Text.double s) ↔ IsSqlText 0 s
  | [] => Iff.rfl
  | c :: s => by
    by_cases hq : c = Text.quote
    · subst hq
      rw [Text.double, if_pos rfl, isSqlText_plain_cons_iff needsEscape_quote,
        isSqlText_plain_cons_iff needsEscape_quote, isSqlText_plain_cons_iff needsEscape_quote,
        isSqlText_double_iff s]
    rw [double_cons_of_ne hq]
    by_cases hb : c = Text.backslash
    · subst hb
      match s with
      | [] => rfl
      | d :: s =>
        by_cases hd : d = Text.quote
        · subst hd
          rw [Text.double, if_pos rfl, isSqlText_backslash_cons_iff, isSqlText_backslash_cons_iff,
            needsEscape_quote]
          simp
        · rw [double_cons_of_ne hd, isSqlText_backslash_cons_iff, isSqlText_backslash_cons_iff,
            isSqlText_double_iff s]
    · rw [isSqlText_zero_cons_iff, isSqlText_zero_cons_iff, isSqlText_double_iff s]
      simp [hb]

theorem isSqlText_quoted_iff (s : String) :
    IsSqlText 0 (RawValue.quoted s).toList ↔ IsSqlText 0 s.toList := by
  have h₁ : IsSqlText 0 [Text.quote] := .plain needsEscape_quote .nil
  have h₂ : ∀ d ∈ [Text.quote].head?, SqlPart.needsEscape d = false := by decide
  rw [RawValue.quoted, String.toList_ofList, List.cons_append,
    isSqlText_plain_cons_iff needsEscape_quote, isSqlText_zero_append_iff h₂,
    isSqlText_double_iff, and_iff_left h₁]

/-- The elements of a list after its first one, and the parenthesis that closes it. -/
def listRest (texts : List String) : List Char :=
  (texts.flatMap fun t => ", ".toList ++ t.toList) ++ [')']

theorem needsEscape_head_listRest (texts : List String) :
    ∀ d ∈ (listRest texts).head?, SqlPart.needsEscape d = false := by
  cases texts <;> simp [listRest, SqlPart.needsEscape, Text.backslash]

theorem isSqlText_listRest_iff (texts : List String) :
    IsSqlText 0 (listRest texts) ↔ ∀ t ∈ texts, IsSqlText 0 t.toList := by
  induction texts with
  | nil => simpa [listRest] using IsSqlText.plain (by decide) .nil
  | cons t texts ih =>
    rw [listRest, List.flatMap_cons, List.append_assoc, List.append_assoc, List.forall_mem_cons,
      ← ih, ← isSqlText_zero_append_iff (needsEscape_head_listRest texts)]
    exact (isSqlText_plain_cons_iff (by decide)).trans (isSqlText_plain_cons_iff (by decide))

theorem isSqlText_list_iff (texts : List String) :
    IsSqlText 0 ("(" ++ String.intercalate ", " texts ++ ")").toList ↔
      ∀ t ∈ texts, IsSqlText 0 t.toList := by
  have h : SqlPart.needsEscape '(' = false := by decide
  cases texts with
  | nil => simpa using IsSqlText.plain h (.plain (by decide) .nil)
  | cons t texts =>
    rw [String.toList_append, String.toList_append, toList_intercalate_cons, List.append_assoc,
      List.append_assoc, List.forall_mem_cons, ← isSqlText_listRest_iff,
      ← isSqlText_zero_append_iff (needsEscape_head_listRest texts)]
    exact isSqlText_plain_cons_iff h

theorem needsEscape_of_isDigit (h : isDigit c = true) : SqlPart.needsEscape c = false := by
  simp only [SqlPart.needsEscape, Bool.or_eq_false_iff, beq_eq_false_iff_ne]
  refine ⟨⟨?_, ?_⟩, ?_⟩ <;> rintro rfl <;> exact absurd h (by decide)

theorem needsEscape_of_mem_chars {x : Double} (h : c ∈ x.chars) :
    SqlPart.needsEscape c = false := by
  rcases Double.mem_chars h with h | h
  · exact needsEscape_of_isDigit h
  · simp only [List.mem_cons, List.not_mem_nil, or_false] at h
    rcases h with rfl | rfl | rfl | rfl <;> rfl

theorem isSqlText_number (x : Number) : IsSqlText 0 x.text.toList := by
  apply isSqlText_of_plain
  cases x with
  | nan => decide
  | infinite negative => cases negative <;> decide
  | finite x =>
    intro c hc
    rw [Number.text, Double.text, String.toList_ofList] at hc
    exact needsEscape_of_mem_chars hc

end Format

/-- The texts in a raw value. -/
def RawValue.texts : RawValue → List String
  | string s => [s]
  | strings xs => xs
  | _ => []

/-- The texts that are bound in a part of raw SQL. -/
def SqlPart.boundTexts : SqlPart → List String
  | value (some v) => v.texts
  | _ => []

namespace Format

/-- Only the texts in a value can mean something in raw SQL. -/
theorem isSqlText_value_iff (v : Option RawValue) :
    IsSqlText 0 (SqlPart.value v).text.toList ↔
      ∀ s ∈ (SqlPart.value v).boundTexts, IsSqlText 0 s.toList := by
  rw [SqlPart.text]
  cases v with
  | none => exact iff_of_true (isSqlText_of_plain (by decide)) (List.forall_mem_nil _)
  | some v =>
    rw [RawValue.textOrNull]
    cases v with
    | int x => exact iff_of_true (isSqlText_number x) (List.forall_mem_nil _)
    | double x => exact iff_of_true (isSqlText_number x) (List.forall_mem_nil _)
    | string s => simp [RawValue.text, SqlPart.boundTexts, RawValue.texts, isSqlText_quoted_iff]
    | ints xs =>
      refine iff_of_true ((isSqlText_list_iff _).2 ?_) (List.forall_mem_nil _)
      exact List.forall_mem_map.2 fun x _ => isSqlText_number x
    | strings xs =>
      rw [RawValue.text, isSqlText_list_iff, List.forall_mem_map]
      exact forall₂_congr fun s _ => isSqlText_quoted_iff s

/-! ## Bound parts -/

/-- Some placeholders are replaced by values, and all else stays. -/
inductive Fills : List SqlPart → List SqlPart → Prop
  | nil : Fills [] []
  | keep (p : SqlPart) {ps bs : List SqlPart} (h : Fills ps bs) : Fills (p :: ps) (p :: bs)
  | fill (name : String) (v : Option RawValue) {ps bs : List SqlPart} (h : Fills ps bs) :
      Fills (.placeholder name :: ps) (.value v :: bs)

section

variable {bindings : Value} {requiresAll : Bool} {ps bs : List SqlPart}

/-- Binding keeps a part or fills a placeholder. -/
theorem fills_cons_of_bind? {p : SqlPart} {r : Option SqlPart}
    (hr : p.bind? bindings requiresAll = .ok r) (h : Fills ps bs) :
    Fills (p :: ps) (r.getD p :: bs) := by
  cases p with
  | raw sql =>
    obtain rfl := Except.ok.inj hr
    exact .keep _ h
  | value v =>
    obtain rfl := Except.ok.inj hr
    exact .keep _ h
  | placeholder name =>
    rw [SqlPart.bind?] at hr
    split at hr
    · obtain rfl := eq_none_of_unboundName hr
      exact .keep _ h
    · obtain rfl := Except.ok.inj hr
      exact .fill name none h
    · split at hr
      · obtain rfl := Except.ok.inj hr
        exact .fill name _ h
      · contradiction

theorem fills_replaceEach? {r : Option (List SqlPart)}
    (hr : replaceEach? (SqlPart.bind? bindings requiresAll) ps = .ok r) :
    Fills ps (r.getD ps) := by
  induction ps generalizing r with
  | nil =>
    obtain rfl := Except.ok.inj hr
    exact .nil
  | cons p ps ih =>
    obtain ⟨b, bs, h₁, h₂, h₃⟩ := consReplaced_eq_ok hr
    rw [h₃]
    exact fills_cons_of_bind? h₁ (ih h₂)

theorem exists_fills_of_bind {r : Qualifier}
    (hr : (Qualifier.sql ps).bind bindings requiresAll = .ok r) :
    ∃ bs, r = .sql bs ∧ Fills ps bs := by
  obtain ⟨s, h₁, rfl⟩ := exists_of_map_eq_ok hr
  obtain ⟨t, h₂, rfl⟩ := exists_of_map_eq_ok h₁
  refine ⟨t.getD ps, ?_, fills_replaceEach? h₂⟩
  cases t <;> rfl

/-- What follows a placeholder starts with a break that is no bracket, and so it does when
placeholders in it are filled. -/
theorem Fills.head {ps bs : List SqlPart} (h : Fills ps bs) (hp : LegibleSql ps)
    (he : EndsName (SqlPart.chars ps ++ [']'])) :
    ∀ c ∈ (SqlPart.chars bs).head?, isBreak c = true ∧ SqlPart.needsEscape c = false := by
  induction h with
  | nil => simp
  | @keep p ps bs h ih =>
    cases hp with
    | @raw sql _ hp =>
      rw [SqlPart.chars_cons, SqlPart.text, String.toList_ofList] at he ⊢
      cases hs : sql.toList with
      | nil =>
        rw [hs] at he
        exact ih hp he
      | cons d ds =>
        rw [hs] at he
        cases hd : SqlPart.needsEscape d with
        | true =>
          have h₁ := he Text.backslash (by simp [Text.escape, hd])
          exact absurd h₁ (by decide)
        | false =>
          have h₁ := he d (by simp [Text.escape, hd])
          simpa [Text.escape, hd] using h₁
    | placeholder _ _ _ => exact absurd (he '$' (by simp [SqlPart.text])) (by decide)
  | fill name v h ih => exact absurd (he '$' (by simp [SqlPart.text])) (by decide)

theorem Fills.endsName {ps bs : List SqlPart} (h : Fills ps bs) (hp : LegibleSql ps)
    (he : EndsName (SqlPart.chars ps ++ [']'])) : EndsName (SqlPart.chars bs) :=
  fun c hc => (h.head hp he c hc).1

theorem endsName_append_bracket_iff : EndsName (cs ++ [']']) ↔ EndsName cs := by
  cases cs with
  | nil => exact iff_of_true (by simp [EndsName, isBreak]) (by simp [EndsName])
  | cons c cs => rfl

/-- The number of placeholders. -/
def placeholderCount (ps : List SqlPart) : Nat :=
  (ps.filterMap SqlPart.name?).length

theorem isSqlText_chars {ps : List SqlPart} (h : LegibleSql ps) :
    IsSqlText (placeholderCount ps) (SqlPart.chars ps) := by
  induction h with
  | nil => exact .nil
  | raw _ ih =>
    rw [SqlPart.chars_cons, SqlPart.text, String.toList_ofList, isSqlText_escape_append_iff]
    exact ih
  | @placeholder name ps h₁ h₂ h₃ ih =>
    have h₄ := IsSqlText.placeholder h₁ (endsName_append_bracket_iff.1 h₂) ih
    simpa [SqlPart.text, placeholderCount, SqlPart.name?] using h₄

/-- Values whose texts can stand in raw SQL are written like raw texts. -/
theorem Fills.exists_legible (h : Fills ps bs) (hp : LegibleSql ps)
    (hv : ∀ s ∈ bs.flatMap SqlPart.boundTexts, IsSqlText 0 s.toList) :
    ∃ qs, LegibleSql qs ∧ SqlPart.chars qs = SqlPart.chars bs ∧
      qs.filterMap SqlPart.name? = bs.filterMap SqlPart.name? := by
  induction h with
  | nil => exact ⟨[], .nil, rfl, rfl⟩
  | @keep p ps bs h ih =>
    rw [List.flatMap_cons, List.forall_mem_append] at hv
    cases hp with
    | @raw sql _ hp =>
      obtain ⟨qs, h₁, h₂, h₃⟩ := ih hp hv.2
      exact ⟨.raw sql :: qs, .raw h₁, by simp [h₂], by simp [List.filterMap_cons, h₃]⟩
    | @placeholder name _ hn he hp =>
      obtain ⟨qs, h₁, h₂, h₃⟩ := ih hp hv.2
      refine ⟨.placeholder name :: qs, .placeholder hn ?_ h₁, by simp [h₂],
        by simp [List.filterMap_cons, h₃]⟩
      rw [h₂, endsName_append_bracket_iff]
      exact h.endsName hp he
  | @fill name v ps bs h ih =>
    rw [List.flatMap_cons, List.forall_mem_append] at hv
    cases hp with
    | placeholder _ _ hp =>
      obtain ⟨qs, h₁, h₂, h₃⟩ := ih hp hv.2
      obtain ⟨raws, h₄⟩ := isSqlText_zero_iff.1 ((isSqlText_value_iff v).2 hv.1)
      refine ⟨.raw (.ofList raws) :: qs, .raw h₁, ?_, h₃⟩
      rw [SqlPart.chars_cons, SqlPart.chars_cons, h₂, ← h₄, SqlPart.text, String.toList_ofList,
        String.toList_ofList]

/-- No placeholder gets lost in a text that can stand in raw SQL, and if none was added, the texts
that were bound can stand there, too. -/
theorem Fills.placeholderCount_le (h : Fills ps bs) (hp : LegibleSql ps)
    (hn : IsSqlText n (SqlPart.chars bs)) :
    placeholderCount bs ≤ n ∧
      (n = placeholderCount bs → ∀ s ∈ bs.flatMap SqlPart.boundTexts, IsSqlText 0 s.toList) := by
  induction h generalizing n with
  | nil => exact ⟨Nat.zero_le n, by simp⟩
  | @keep p ps bs h ih =>
    cases hp with
    | raw hp =>
      rw [SqlPart.chars_cons, SqlPart.text, String.toList_ofList, isSqlText_escape_append_iff] at hn
      exact ih hp hn
    | @placeholder name _ hm he hp =>
      have h₁ : SqlPart.chars (.placeholder name :: bs) =
          '$' :: (name.toList ++ SqlPart.chars bs) := by
        simp [SqlPart.text]
      rw [h₁, isSqlText_placeholder_iff hm (h.endsName hp he)] at hn
      obtain ⟨m, rfl, hm⟩ := hn
      obtain ⟨h₂, h₃⟩ := ih hp hm
      exact ⟨Nat.succ_le_succ h₂, fun h₄ => h₃ (Nat.succ.inj h₄)⟩
  | @fill name v ps bs h ih =>
    cases hp with
    | placeholder _ he hp =>
      -- the value ends where the name of the placeholder did
      obtain ⟨k, m, rfl, h₁, h₂⟩ := hn.split (fun c hc => (h.head hp he c hc).2)
        (.inr (h.endsName hp he))
      obtain ⟨h₃, h₄⟩ := ih hp h₂
      have h₅ : placeholderCount (.value v :: bs) = placeholderCount bs := rfl
      rw [h₅]
      refine ⟨by omega, fun h₆ => ?_⟩
      obtain ⟨rfl, rfl⟩ : k = 0 ∧ m = placeholderCount bs := by omega
      rw [List.flatMap_cons, List.forall_mem_append]
      exact ⟨(isSqlText_value_iff v).1 h₁, h₄ rfl⟩

end

theorem filterMap_name?_mergeAfter (raws : List Char) (ps : List SqlPart) :
    (SqlPart.mergeAfter raws ps).filterMap SqlPart.name? = ps.filterMap SqlPart.name? := by
  have h : ∀ raws, (rawPart raws).filterMap SqlPart.name? = [] := fun raws => by
    cases raws <;> rfl
  induction ps generalizing raws with
  | nil => exact h raws
  | cons p ps ih =>
    cases p with
    | raw sql => exact ih (raws ++ sql.toList)
    | placeholder name => simp [SqlPart.mergeAfter, h, List.filterMap_cons, ih]
    | value v => simp [SqlPart.mergeAfter, h, List.filterMap_cons, ih]

/-- Legible parts hold no values, and others are equal to them only if they are the same. -/
theorem LegibleSql.eq_of_equalParts {ps qs : List SqlPart} (h : LegibleSql ps)
    (he : EqualParts ps qs) : ps = qs := by
  induction h generalizing qs with
  | nil =>
    cases he
    rfl
  | raw _ ih =>
    cases he with
    | @cons _ q _ _ h₁ h₂ =>
      cases q <;> try contradiction
      rw [ih h₂, eq_of_beq h₁]
  | placeholder _ _ _ ih =>
    cases he with
    | @cons _ q _ _ h₁ h₂ =>
      cases q <;> try contradiction
      rw [ih h₂, eq_of_beq h₁]

theorem legibleSql_of_parse {ps : List SqlPart} {p : Qualifier}
    (h₁ : (Qualifier.parse (Qualifier.sql ps).text []).value = some p)
    (h₂ : p.isEqual (.sql ps) = true) : LegibleSql ps := by
  have h₃ := legible_of_parse h₁
  cases Qualifier.alike_of_isEqual h₂ with
  | sql he =>
    cases h₃ with
    | sql h => rwa [← h.eq_of_equalParts he]

theorem text_sql_eq_iff {ps qs : List SqlPart} :
    (Qualifier.sql ps).text = (Qualifier.sql qs).text ↔ SqlPart.chars ps = SqlPart.chars qs := by
  rw [← String.toList_inj, Qualifier.toList_text_sql, Qualifier.toList_text_sql,
    List.append_cancel_left_eq, List.append_cancel_right_eq]

end Format

open Format

/-! ## What bound raw SQL is read as -/

/-- Raw SQL that is read back from its own text is read back from the text that it has after values
were bound, with the placeholders that are left, exactly if the bound texts can stand in raw SQL:
a backslash stands before every character that means something there. -/
theorem isSqlText_boundTexts_iff {ps : List SqlPart} {p : Qualifier}
    (h₁ : (Qualifier.parse (Qualifier.sql ps).text []).value = some p)
    (h₂ : p.isEqual (.sql ps) = true) {bindings : Value} {requiresAll : Bool} {r : Qualifier}
    (h₃ : (Qualifier.sql ps).bind bindings requiresAll = .ok r) :
    ∃ bs, r = .sql bs ∧
      ((∀ s ∈ bs.flatMap SqlPart.boundTexts, IsSqlText 0 s.toList) ↔
        ∃ qs, Qualifier.parse r.text [] = ⟨some (.sql qs), []⟩ ∧ (Qualifier.sql qs).text = r.text ∧
          (Qualifier.sql qs).bindingKeys = r.bindingKeys ∧
          (Qualifier.sql qs).bindingOccurrences.length = r.bindingOccurrences.length) := by
  have hp := legibleSql_of_parse h₁ h₂
  obtain ⟨bs, rfl, hf⟩ := exists_fills_of_bind h₃
  refine ⟨bs, rfl, ⟨fun hv => ?_, ?_⟩⟩
  · obtain ⟨qs, h₄, h₅, h₆⟩ := hf.exists_legible hp hv
    have h₇ : Qualifier.parse (Qualifier.sql qs).text [] = ⟨some (Qualifier.sql qs).reread, []⟩ :=
      Legible.parse_text (.sql h₄)
    have h₈ : (SqlPart.merge qs).filterMap SqlPart.name? = bs.filterMap SqlPart.name? :=
      (filterMap_name?_mergeAfter [] qs).trans h₆
    rw [text_sql_eq_iff.2 h₅] at h₇
    refine ⟨SqlPart.merge qs, h₇, ?_, congrArg List.eraseDups h₈, congrArg List.length h₈⟩
    rw [← text_sql_eq_iff.2 h₅]
    exact (Qualifier.sql qs).text_reread
  · rintro ⟨qs, h₄, h₅, -, h₆⟩
    have h₇ : Legible (.sql qs) := legible_of_parse (congrArg Logged.value h₄)
    cases h₇ with
    | sql h₇ =>
      have h₈ := isSqlText_chars h₇
      rw [text_sql_eq_iff.1 h₅] at h₈
      exact (hf.placeholderCount_le hp h₈).2 h₆

/-- A bracket with a backslash before it and a quote in bound texts, and a placeholder that is
left. -/
theorem isSqlText_boundTexts_iff_cities :
    let q : Qualifier := .sql [.raw "tags[1] = ", .placeholder "tag", .raw " AND city IN ",
      .placeholder "cities"]
    let bindings : Value := .map [("cities", .array [.string "O\\]z", .string "Y\x27s"])]
    let r : Qualifier := .sql [.raw "tags[1] = ", .placeholder "tag", .raw " AND city IN ",
      .value (some (.strings ["O\\]z", "Y\x27s"]))]
    (Qualifier.parse q.text [] = ⟨some q, []⟩ ∧ q.isEqual q = true ∧
      q.bind bindings false = .ok r) ∧
      ∃ qs, Qualifier.parse r.text [] = ⟨some (.sql qs), []⟩ ∧ (Qualifier.sql qs).text = r.text ∧
        (Qualifier.sql qs).bindingKeys = r.bindingKeys ∧
        (Qualifier.sql qs).bindingOccurrences.length = r.bindingOccurrences.length := by
  intro q bindings r
  have hn : ∀ name ∈ ["tag", "cities"], IsName name := List.forall_mem_cons.2
    ⟨⟨by decide, by decide, by decide⟩, by simpa using ⟨by decide, by decide, by decide⟩⟩
  have hq : Legible q := by
    refine .sql (.raw (.placeholder (hn _ (by simp)) ?_ (.raw (.placeholder (hn _ (by simp)) ?_
      .nil))))
    · simp [SqlPart.text, Text.escape, SqlPart.needsEscape, Text.backslash, EndsName, isBreak,
        isSpace]
    · simp [EndsName, isBreak]
  have h₁ : Qualifier.parse q.text [] = ⟨some q, []⟩ := hq.parse_text
  have h₂ : q.bind bindings false = .ok r := by
    have h := bindings.lookupText_of_notMem
    have hv : RawValue.ofList? [.string "O\\]z", .string "Y\x27s"] =
        some (.strings ["O\\]z", "Y\x27s"]) := rfl
    simp [q, r, Qualifier.bind, Qualifier.bind?, replaceEach?, SqlPart.bind?, consReplaced,
      bindingValue?, bindings, h, hv, unboundName, Value.lookup, Entries.get?, RawValue.ofValue?,
      Except.map]
  obtain ⟨bs, hb, h₃⟩ := isSqlText_boundTexts_iff (congrArg Logged.value h₁) q.isEqual_self h₂
  obtain rfl := Qualifier.sql.inj hb
  refine ⟨⟨h₁, q.isEqual_self, h₂⟩, h₃.1 (List.forall_mem_cons.2 ⟨?_, ?_⟩)⟩
  · exact isSqlText_zero_iff.2 ⟨"O]z".toList, by decide⟩
  · simpa using isSqlText_zero_iff.2 ⟨"Y\x27s".toList, by decide⟩

/-- A text with a bracket in it closes the body that it is bound in, and goes on with another
condition. -/
theorem parse_boundSql_injected :
    let q : Qualifier := .sql [.raw "a = ", .placeholder "x"]
    let bindings : Value := .map [("x", .string "x] AND SQL[")]
    let r : Qualifier := .sql [.raw "a = ", .value (some (.string "x] AND SQL["))]
    let p : Qualifier := .compound .and [.sql [.raw "a = \x27x"], .sql [.raw "\x27"]]
    Qualifier.parse q.text [] = ⟨some q, []⟩ ∧
      (∀ requiresAll, q.bind bindings requiresAll = .ok r) ∧
      Qualifier.parse r.text [] = ⟨some p, []⟩ := by
  intro q bindings r p
  have hx : IsName "x" := ⟨by decide, by decide, by decide⟩
  have hq : Legible q := .sql (.raw (.placeholder hx (by simp [EndsName, isBreak]) .nil))
  have hp : Legible p := by
    refine .compound (by decide) (List.forall_mem_cons.2 ⟨.sql (.raw .nil), ?_⟩)
    simpa using Legible.sql (.raw .nil)
  have hr : r.text = p.text := by decide
  refine ⟨hq.parse_text, fun requiresAll => ?_, ?_⟩
  · have h := bindings.lookupText_of_notMem
    simp [q, r, Qualifier.bind, Qualifier.bind?, replaceEach?, SqlPart.bind?, consReplaced,
      bindingValue?, bindings, h, Value.lookup, Entries.get?, RawValue.ofValue?, Except.map]
  · rw [hr]
    exact hp.parse_text

end RecordQuery
