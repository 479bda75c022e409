import RecordQuery.Value

/-!
# Failures

The reasons for which an operation gives no result at all.
-/

namespace RecordQuery

/-- Why there is no result. -/
inductive Failure where
  /-- A required variable has no value; `note` replaces the usual message. -/
  | bindingNotFound (name : String) (note : Option String)
  /-- The value of a variable has no form in raw SQL. -/
  | unsupportedRawValue (name : String) (value : Value)
  /-- A key path without keys. -/
  | emptyKeyPath
  /-- An array in which a symbol stands is asked for its text. -/
  | symbolInText

namespace Failure

/-- The name of the kind of failure. -/
def title : Failure → String
  | bindingNotFound _ _ => "QualifierBindingNotFoundError"
  | unsupportedRawValue _ _ => "UnsupportedRawValueError"
  | emptyKeyPath => "Error"
  | symbolInText => "TypeError"

/-- What went wrong. -/
def message : Failure → String
  | bindingNotFound name none => "Qualifier binding not found: $" ++ name
  | bindingNotFound _ (some note) => note
  | unsupportedRawValue name value =>
    "Unsupported raw SQL value for binding $" ++ name ++ ": " ++ value.typeName
  | emptyKeyPath => "KeyPath: at least one key is required"
  | symbolInText => "Cannot convert a Symbol value to a string"

/-- The variable that the failure is about. -/
def binding? : Failure → Option String
  | bindingNotFound name _ => some name
  | unsupportedRawValue name _ => some name
  | emptyKeyPath => none
  | symbolInText => none

/-- The failure in one line; an empty message leaves the title alone. -/
def text (f : Failure) : String :=
  if f.message = "" then f.title else f.title ++ ": " ++ f.message

end Failure

end RecordQuery
