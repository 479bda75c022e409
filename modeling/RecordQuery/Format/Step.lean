import RecordQuery.Log
import RecordQuery.Text.Units

/-!
# Steps of a parse

A `Cursor` is what is left of the text and of the arguments. A `Step` tells what a parser did from
a cursor: the entries it logged, and the value and the cursor after it unless it failed. A failure
ends the parse; what was logged before it stays.

An argument that is asked for its text need not have one. The step notes that it was asked and goes
on with an empty text; `Qualifier.parse?` has no answer then.
-/

namespace RecordQuery.Format

/-- What is left of the text and of the arguments. -/
structure Cursor where
  rest : List Char
  args : List Value

/-- The cursor with other characters left. -/
def Cursor.at (c : Cursor) (rest : List Char) : Cursor :=
  { c with rest := rest }

/-- What a parser did. -/
structure Step (α : Type) where
  log : List LogEntry
  result : Option (α × Cursor)
  /-- An argument was asked for a text that it does not have. -/
  textless : Bool

namespace Step

variable {α β : Type}

/-- A value, and where the parse goes on. -/
def ok (a : α) (c : Cursor) : Step α :=
  ⟨[], some (a, c), false⟩

/-- The end of a parse without a word. -/
def stop : Step α :=
  ⟨[], none, false⟩

/-- A failure with its reason. -/
def fail (message : String) : Step α :=
  ⟨[.error message []], none, false⟩

/-- Entries that were logged before a step. -/
def after (entries : List LogEntry) (s : Step α) : Step α :=
  { s with log := entries ++ s.log }

/-- A step before which an argument was asked for its text. -/
def asking (v : Value) (s : Step α) : Step α :=
  { s with textless := v.text?.isNone || s.textless }

/-- A step and what was done before it. -/
def behind (s : Step α) (t : Step β) : Step β :=
  ⟨s.log ++ t.log, t.result, s.textless || t.textless⟩

/-- Goes on from a value unless there was a failure. -/
def bind (s : Step α) (f : α → Cursor → Step β) : Step β :=
  match s.result with
  | none => { s with result := none }
  | some (a, c) => s.behind (f a c)

/-- Changes the value. -/
def map (f : α → β) (s : Step α) : Step β :=
  { s with result := s.result.map fun r => (f r.1, r.2) }

@[simp] theorem log_ok (a : α) (c : Cursor) : (ok a c).log = [] := rfl

@[simp] theorem result_ok (a : α) (c : Cursor) : (ok a c).result = some (a, c) := rfl

@[simp] theorem log_stop : (stop : Step α).log = [] := rfl

@[simp] theorem result_stop : (stop : Step α).result = none := rfl

@[simp] theorem result_fail (m : String) : (fail m : Step α).result = none := rfl

@[simp] theorem log_after (es : List LogEntry) (s : Step α) : (s.after es).log = es ++ s.log := rfl

@[simp] theorem result_after (es : List LogEntry) (s : Step α) :
    (s.after es).result = s.result := rfl

@[simp] theorem after_nil (s : Step α) : s.after [] = s := rfl

@[simp] theorem log_asking (v : Value) (s : Step α) : (s.asking v).log = s.log := rfl

@[simp] theorem result_asking (v : Value) (s : Step α) : (s.asking v).result = s.result := rfl

theorem asking_of_isSome {v : Value} (h : v.text?.isSome = true) (s : Step α) : s.asking v = s := by
  rw [asking, Option.isNone_eq_false_iff.2 h, Bool.false_or]

@[simp] theorem asking_string (t : String) (s : Step α) : s.asking (.string t) = s :=
  asking_of_isSome rfl s

@[simp] theorem log_behind (s : Step α) (t : Step β) : (s.behind t).log = s.log ++ t.log := rfl

@[simp] theorem result_behind (s : Step α) (t : Step β) : (s.behind t).result = t.result := rfl

@[simp] theorem behind_ok (a : α) (c : Cursor) (t : Step β) : (ok a c).behind t = t := rfl

@[simp] theorem bind_ok (a : α) (c : Cursor) (f : α → Cursor → Step β) :
    (ok a c).bind f = f a c := rfl

theorem bind_of_result {s : Step α} {a : α} {c : Cursor} (h : s.result = some (a, c))
    (f : α → Cursor → Step β) : s.bind f = s.behind (f a c) := by
  rw [bind, h]

/-- What was asked for before a step stays asked for. -/
theorem textless_bind {s : Step α} (h : s.textless = true) (f : α → Cursor → Step β) :
    (s.bind f).textless = true := by
  unfold bind
  cases s.result with
  | none => exact h
  | some p => simp [behind, h]

/-- A step succeeds if its first part and what goes on from it do. -/
theorem result_bind_eq_some {s : Step α} {f : α → Cursor → Step β} {r : β × Cursor} :
    (s.bind f).result = some r ↔ ∃ a c, s.result = some (a, c) ∧ (f a c).result = some r := by
  unfold bind
  cases h : s.result with
  | none => simp
  | some p =>
    constructor
    · intro h₁
      exact ⟨p.1, p.2, rfl, h₁⟩
    · rintro ⟨a, c, h₁, h₂⟩
      obtain rfl := Option.some.inj h₁
      exact h₂

end Step

/-- The place of the cursor in a text of the given size, in code units from the start. -/
def Cursor.index (size : Nat) (c : Cursor) : Nat :=
  size - Text.unitCount c.rest

/-- A reason that ends with the place of the cursor. -/
def Cursor.message (size : Nat) (reason : String) (c : Cursor) : String :=
  reason ++ " at index " ++ .ofList (digits (c.index size))

end RecordQuery.Format
