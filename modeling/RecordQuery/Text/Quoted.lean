/-!
# Quoted texts

Two ways of writing a text between quotes: `escape` puts a backslash before every character of a
set, `double` writes every quote twice. `undouble` reads up to the closing quote.

* `undouble_double`: reading undoes doubling;
* `eq_double_of_undouble`: only what doubling writes is read.
-/

namespace RecordQuery.Text

/-- The backslash. -/
def backslash : Char := '\x5c'

/-- The single quote. -/
def quote : Char := '\x27'

/-- The double quote. -/
def doubleQuote : Char := '\x22'

/-! ## Escapes -/

/-- The text with a backslash before each character that is `special`. -/
def escape (special : Char → Bool) : List Char → List Char
  | [] => []
  | c :: cs => if special c then backslash :: c :: escape special cs else c :: escape special cs

/-! ## Doubled quotes -/

/-- The text with each quote written twice. -/
def double : List Char → List Char
  | [] => []
  | c :: cs => if c = quote then quote :: quote :: double cs else c :: double cs

/-- The text before the first quote that stands alone, with doubled quotes read as one, and what
follows that quote. -/
def undouble : List Char → Option (List Char × List Char)
  | [] => none
  | [c] => if c = quote then some ([], []) else none
  | c :: d :: cs =>
    if c = quote then
      if d = quote then (undouble cs).map fun r => (quote :: r.1, r.2) else some ([], d :: cs)
    else (undouble (d :: cs)).map fun r => (c :: r.1, r.2)

theorem undouble_cons_of_ne {c : Char} (h : c ≠ quote) (cs : List Char) :
    undouble (c :: cs) = (undouble cs).map fun r => (c :: r.1, r.2) := by
  cases cs with
  | nil => simp [undouble, h]
  | cons d cs => simp [undouble, h]

/-- Reading up to the closing quote undoes doubling, whatever follows that is not a quote. -/
theorem undouble_double (cs : List Char) {rest : List Char} (h : rest.head? ≠ some quote) :
    undouble (double cs ++ quote :: rest) = some (cs, rest) := by
  induction cs with
  | nil =>
    cases rest with
    | nil => simp [double, undouble]
    | cons d rest =>
      have h₁ : d ≠ quote := fun h' => h (by simp [h'])
      simp [double, undouble, h₁]
  | cons c cs ih =>
    by_cases h₁ : c = quote
    · simp [double, h₁, undouble, ih]
    · simp [double, h₁, undouble_cons_of_ne h₁, ih]

/-- Only what doubling writes is read. -/
theorem eq_double_of_undouble {cs s rest : List Char} (h : undouble cs = some (s, rest)) :
    cs = double s ++ quote :: rest ∧ rest.head? ≠ some quote := by
  fun_induction undouble cs generalizing s rest with
  | case1 => contradiction
  | case2 =>
    obtain ⟨rfl, rfl⟩ := Prod.mk.inj (Option.some.inj h)
    exact ⟨rfl, nofun⟩
  | case3 => contradiction
  | case4 cs ih =>
    obtain ⟨⟨s, r⟩, h₁, h₂⟩ := Option.map_eq_some_iff.1 h
    obtain ⟨rfl, rfl⟩ := Prod.mk.inj h₂
    obtain ⟨rfl, h₃⟩ := ih h₁
    exact ⟨by simp [double], h₃⟩
  | case5 d cs hd =>
    obtain ⟨rfl, rfl⟩ := Prod.mk.inj (Option.some.inj h)
    exact ⟨rfl, by simpa using hd⟩
  | case6 c d cs hc ih =>
    obtain ⟨⟨s, r⟩, h₁, h₂⟩ := Option.map_eq_some_iff.1 h
    obtain ⟨rfl, rfl⟩ := Prod.mk.inj h₂
    obtain ⟨h₃, h₄⟩ := ih h₁
    exact ⟨by simp [double, hc, h₃], h₄⟩

end RecordQuery.Text
