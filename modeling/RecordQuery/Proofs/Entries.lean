import RecordQuery.Entries

/-!
# Entries under distinct names

Giving and removing names keeps them distinct, and a listing only changes their order
(`Entries.enumerate_perm`). Under distinct names the order does not matter for what is found:
`Entries.get?_eq_some_iff_mem`, `Entries.get?_eq_of_perm`.
-/

namespace RecordQuery.Entries

variable {α : Type} {es fs : Entries α} {name : String} {value : α}

/-! ## Names -/

@[simp] theorem names_nil : names ([] : Entries α) = [] := rfl

@[simp] theorem names_cons (e : String × α) (es : Entries α) : names (e :: es) = e.1 :: es.names :=
  rfl

theorem mem_names_iff : name ∈ es.names ↔ ∃ value, (name, value) ∈ es := by
  simp [names]

theorem mem_names_of_mem (h : (name, value) ∈ es) : name ∈ es.names :=
  mem_names_iff.2 ⟨value, h⟩

theorem get?_eq_none_iff : es.get? name = none ↔ name ∉ es.names := by
  induction es with
  | nil => simp
  | cons e es ih =>
    obtain ⟨n, v⟩ := e
    by_cases h : n = name
    · simp [get?, h]
    · simp [get?, h, Ne.symm h, ih]

theorem names_set (es : Entries α) (name : String) (value : α) :
    (es.set name value).names = if name ∈ es.names then es.names else es.names ++ [name] := by
  induction es with
  | nil => rfl
  | cons e es ih =>
    obtain ⟨n, v⟩ := e
    by_cases h : n = name
    · simp [set, h]
    · rw [set, if_neg h, names_cons, ih]
      by_cases h₁ : name ∈ names es <;> simp [h₁, Ne.symm h]

theorem nodup_names_set (h : es.names.Nodup) (name : String) (value : α) :
    (es.set name value).names.Nodup := by
  rw [names_set]
  split
  next => exact h
  next h₁ => exact (List.perm_append_singleton name es.names).symm.nodup (List.nodup_cons.2 ⟨h₁, h⟩)

theorem nodup_names_erase (h : es.names.Nodup) (name : String) : (es.erase name).names.Nodup :=
  h.sublist (List.filter_sublist.map _)

/-! ## What is found -/

/-- Under distinct names an entry is found if it is there. -/
theorem get?_eq_some_iff_mem (h : es.names.Nodup) :
    es.get? name = some value ↔ (name, value) ∈ es := by
  induction es with
  | nil => simp
  | cons e es ih =>
    obtain ⟨n, v⟩ := e
    rw [names_cons, List.nodup_cons] at h
    by_cases h₁ : n = name
    · subst h₁
      have h₂ : (n, value) ∉ es := fun hm => h.1 (mem_names_of_mem hm)
      simp [get?, h₂, eq_comm]
    · simp [get?, h₁, Ne.symm h₁, ih h.2]

/-- Under distinct names the order of the entries does not matter. -/
theorem get?_eq_of_perm (h₁ : es.Perm fs) (h₂ : es.names.Nodup) (name : String) :
    es.get? name = fs.get? name := by
  have h₃ : es.names.Perm fs.names := h₁.map _
  cases h : es.get? name with
  | none =>
    rw [get?_eq_none_iff, h₃.mem_iff] at h
    exact (get?_eq_none_iff.2 h).symm
  | some value =>
    rw [get?_eq_some_iff_mem h₂, h₁.mem_iff] at h
    exact ((get?_eq_some_iff_mem (h₃.nodup h₂)).2 h).symm

/-! ## Listings -/

theorem insertByIndex_perm (i : Nat) (e : String × α) (es : List (Nat × String × α)) :
    (insertByIndex i e es).Perm ((i, e) :: es) := by
  induction es with
  | nil => exact .refl _
  | cons f es ih =>
    obtain ⟨j, f⟩ := f
    rw [insertByIndex]
    split
    · exact .refl _
    · exact (ih.cons (j, f)).trans (.swap _ _ _)

/-- A listing has the entries of the record, each once. -/
theorem enumerate_perm (es : Entries α) : es.enumerate.Perm es := by
  rw [enumerate]
  induction es with
  | nil => exact .refl _
  | cons e es ih =>
    cases h : index? e.1 with
    | none =>
      simp only [List.foldr_cons, h, List.filter_cons, Option.isNone_none, if_true]
      exact List.perm_middle.trans (ih.cons e)
    | some i =>
      simp only [List.foldr_cons, h, List.filter_cons, Option.isNone_some, Bool.false_eq_true,
        if_false]
      exact (((insertByIndex_perm i e _).map Prod.snd).append_right _).trans (ih.cons e)

theorem nodup_names_enumerate (h : es.names.Nodup) : es.enumerate.names.Nodup :=
  (es.enumerate_perm.map Prod.fst).symm.nodup h

theorem get?_enumerate (h : es.names.Nodup) (name : String) :
    es.enumerate.get? name = es.get? name :=
  get?_eq_of_perm es.enumerate_perm (nodup_names_enumerate h) name

end RecordQuery.Entries
