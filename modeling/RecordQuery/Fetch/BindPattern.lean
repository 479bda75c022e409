import RecordQuery.Value.Lookup

/-!
# Bind patterns

A pattern is a text with fields: `%(key)s` stands for the value at a key path of the bindings, and
`%%` for a percent sign. `formatPattern` fills the fields in.

`resolveHints` does so for all hints whose name ends in `BindPattern`: what is filled in is stored
under the name without that ending, and the pattern is removed.

Patterns and what is filled in are taken to have texts. The error of an array without one
(`Value.text?_eq_none_iff`) is that of whoever asks for the text, and no part of a pattern.
-/

namespace RecordQuery

/-- The key of a field, whose opening `%(` was taken, and what is left after it. -/
def fieldKey? (cs : List Char) : Option (List Char × List Char) :=
  match cs.dropWhile (· != ')') with
  | ')' :: 's' :: r => some (cs.takeWhile (· != ')'), r)
  | _ => none

theorem length_fieldKey? {cs key r : List Char} (h : fieldKey? cs = some (key, r)) :
    r.length < cs.length := by
  have h₁ := (List.dropWhile_sublist (l := cs) (· != ')')).length_le
  unfold fieldKey? at h
  split at h
  next r' h₂ =>
    simp only [Option.some.injEq, Prod.mk.injEq] at h
    obtain ⟨-, rfl⟩ := h
    simp only [h₂, List.length_cons] at h₁
    omega
  next => contradiction

/-- The text of a value in a field; nothing for an absent one. -/
def fieldText (v : Value) : List Char :=
  if v.isAbsent then [] else v.text.toList

/-- A pattern with its fields filled in, from the left; what is filled in is not looked at again. -/
def fillFields (bindings : Value) (cs : List Char) : List Char :=
  match cs with
  | [] => []
  | '%' :: '%' :: r => '%' :: fillFields bindings r
  | '%' :: '(' :: r =>
    match _h : fieldKey? r with
    | some (key, r') => fieldText (bindings.lookupText (.ofList key)) ++ fillFields bindings r'
    | none => '%' :: fillFields bindings ('(' :: r)
  | c :: r => c :: fillFields bindings r
termination_by cs.length
decreasing_by
  all_goals simp only [List.length_cons]
  · omega
  · have h₁ := length_fieldKey? _h
    omega
  · omega
  · omega

/-- A pattern with its fields filled in. -/
def formatPattern (pattern : String) (bindings : Value) : String :=
  .ofList (fillFields bindings pattern.toList)

/-- The ending of the names of hints that are patterns. -/
def patternEnding : List Char := "BindPattern".toList

/-- The name without the ending, for the name of a pattern. -/
def patternTarget? (name : String) : Option String :=
  if patternEnding.isSuffixOf name.toList then
    some (.ofList (name.toList.take (name.toList.length - patternEnding.length)))
  else none

/-- Gives a hint a value. The name under which a record shows what it inherits is never added. -/
def setHint (name : String) (value : Value) (hints : Entries Value) : Entries Value :=
  if name = Value.inheritanceName ∧ (hints.get? name).isNone then hints else hints.set name value

/-- Fills in one hint, if it is a pattern. -/
def resolveHint (bindings : Value) (hints : Entries Value) (hint : String × Value) :
    Entries Value :=
  match patternTarget? hint.1 with
  | some name =>
    setHint name (.string (formatPattern hint.2.text bindings)) (hints.erase hint.1)
  | none => hints

/-- The hints with all patterns filled in, in the order of a listing. -/
def resolveHints (hints : Entries Value) (bindings : Value) : Entries Value :=
  hints.enumerate.foldl (resolveHint bindings) hints.enumerate

end RecordQuery
