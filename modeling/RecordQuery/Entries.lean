import RecordQuery.Number.Decimal

/-!
# Ordered entries

Values under distinct names, in the order in which the names were first given. Giving a name again
replaces its value in place. `Entries.enumerate` is the order in which a record lists its names: the
names that are indexes come first, by size.

* `get?_set`, `get?_erase`: what is found after a change.
-/

namespace RecordQuery

/-- Named values in order. -/
abbrev Entries (α : Type) := List (String × α)

namespace Entries

variable {α : Type}

/-- The first value under a name. -/
def get? (name : String) : Entries α → Option α
  | [] => none
  | (n, v) :: es => if n = name then some v else get? name es

/-- Gives a name a value: in place if the name is there, else at the end. -/
def set (name : String) (value : α) : Entries α → Entries α
  | [] => [(name, value)]
  | (n, v) :: es => if n = name then (n, value) :: es else (n, v) :: set name value es

/-- Removes a name. -/
def erase (name : String) (es : Entries α) : Entries α :=
  es.filter fun e => e.1 != name

/-- The entries that giving the names in turn leads to. -/
def ofList (es : List (String × α)) : Entries α :=
  es.foldl (fun acc e => acc.set e.1 e.2) []

/-- The names in order. -/
def names (es : Entries α) : List String :=
  es.map (·.1)

/-- The index that a name writes: digits without a superfluous zero, below `2 ^ 32 - 1`. -/
def index? (name : String) : Option Nat :=
  let ds := name.toList
  if !ds.isEmpty && ds.all isDigit then
    let n := digitsValue 0 ds
    if digits n = ds ∧ n < 2 ^ 32 - 1 then some n else none
  else none

/-- Puts an entry whose name has the given index before the first one with a greater index. -/
def insertByIndex (i : Nat) (e : String × α) : List (Nat × String × α) → List (Nat × String × α)
  | [] => [(i, e)]
  | (j, f) :: es => if i < j then (i, e) :: (j, f) :: es else (j, f) :: insertByIndex i e es

/-- The entries in the order of a listing: indexes by size, then the other names as they were
given. -/
def enumerate (es : Entries α) : Entries α :=
  let indexed := es.foldr (fun e acc =>
    match index? e.1 with
    | some i => insertByIndex i e acc
    | none => acc) []
  indexed.map (·.2) ++ es.filter fun e => (index? e.1).isNone

@[simp] theorem get?_nil (name : String) : get? name ([] : Entries α) = none := rfl

theorem get?_set (es : Entries α) (name other : String) (value : α) :
    (es.set name value).get? other = if name = other then some value else es.get? other := by
  induction es with
  | nil => rfl
  | cons e es ih =>
    obtain ⟨n, v⟩ := e
    by_cases h₁ : n = name
    · subst h₁
      by_cases h₂ : n = other <;> simp [set, get?, h₂]
    · by_cases h₂ : n = other
      · subst h₂
        have h₃ : name ≠ n := fun h => h₁ h.symm
        simp [set, get?, h₁, h₃]
      · simp [set, get?, h₁, h₂, ih]

theorem get?_erase (es : Entries α) (name other : String) :
    (es.erase name).get? other = if name = other then none else es.get? other := by
  induction es with
  | nil => simp [erase]
  | cons e es ih =>
    obtain ⟨n, v⟩ := e
    unfold erase at ih
    by_cases h₁ : n = name
    · subst h₁
      by_cases h₂ : n = other <;> simp_all [erase, get?]
    · by_cases h₂ : n = other
      · subst h₂
        have h₃ : name ≠ n := fun h => h₁ h.symm
        simp [erase, get?, h₁, h₃]
      · simp_all [erase, get?]

end Entries

end RecordQuery
