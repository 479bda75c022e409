/-!
# UTF-16 code units of a text

Positions in a text are counted in UTF-16 code units, and texts are ordered by them: a character
above `U+FFFF` is two units, both of which are below those of `U+E000` and what follows.
-/

namespace RecordQuery.Text

/-- The code units of a character: itself up to `U+FFFF`, else a high and a low surrogate. -/
def unitsOfChar (c : Char) : List Nat :=
  if c.toNat < 0x10000 then [c.toNat]
  else
    let n := c.toNat - 0x10000
    [0xD800 + n / 0x400, 0xDC00 + n % 0x400]

/-- The code units of a text. -/
def units (cs : List Char) : List Nat :=
  cs.flatMap unitsOfChar

/-- The length of a text in code units. -/
def unitCount (cs : List Char) : Nat :=
  (units cs).length

/-- A text of at least two code units. -/
def hasTwoUnits : List Char → Bool
  | [] => false
  | [c] => decide (0x10000 ≤ c.toNat)
  | _ :: _ :: _ => true

/-- The order of two texts: that of their code units, from the left. -/
def order (a b : String) : Ordering :=
  compare (units a.toList) (units b.toList)

@[simp] theorem units_nil : units [] = [] := rfl

@[simp] theorem units_cons (c : Char) (cs : List Char) :
    units (c :: cs) = unitsOfChar c ++ units cs := rfl

@[simp] theorem units_append (a b : List Char) : units (a ++ b) = units a ++ units b := by
  simp [units]

@[simp] theorem unitCount_append (a b : List Char) :
    unitCount (a ++ b) = unitCount a + unitCount b := by
  simp [unitCount]

theorem unitsOfChar_ne_nil (c : Char) : unitsOfChar c ≠ [] := by
  unfold unitsOfChar
  split <;> simp

/-- Only the empty text has no units. -/
theorem unitCount_eq_zero_iff {cs : List Char} : unitCount cs = 0 ↔ cs = [] := by
  cases cs with
  | nil => simp [unitCount]
  | cons c cs => simp [unitCount, unitsOfChar_ne_nil]

end RecordQuery.Text
