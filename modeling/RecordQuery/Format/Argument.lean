import RecordQuery.Format.Step
import RecordQuery.Qualifier.Basic

/-!
# Arguments of a condition

A pattern such as `%@` or `%d` takes the next argument. In the place of a value the pattern says how
the argument is read; in the place of a name or an operation the argument gives its text.
-/

namespace RecordQuery.Format

/-- The failure of a pattern that finds no argument. -/
def noArgument {α : Type} : Step α :=
  .fail "more format patterns than arguments"

/-- The failure of a pattern that would be a literal percent sign. -/
def noPercent {α : Type} : Step α :=
  .fail "%% is not supported"

/-- A word that stands for an argument: a percent sign with something after it. -/
def isPattern (word : String) : Bool :=
  match word.toList with
  | '%' :: _ :: _ => true
  | _ => false

/-- The letters after a percent sign that are patterns. -/
def isSpecifier (c : Char) : Bool :=
  ['K', 's', 'i', 'd', 'f', '@'].contains c

/-- The text of an argument that gives a name or an operation. -/
def argumentText (v : Value) : String :=
  if v.isAbsent then "null" else v.text

/-- The text of the next argument for a word that is a pattern, else the word itself. -/
def resolve (word : String) (c : Cursor) : Step String :=
  if isPattern word then
    match c.args with
    | [] => noArgument
    | v :: args =>
      match word.toList[1]? with
      | some s =>
        if isSpecifier s then .asking v (.ok (argumentText v) ⟨c.rest, args⟩)
        else if s = '%' then noPercent
        else .fail ("unknown format specification: " ++ word)
      | none => .fail ("unknown format specification: " ++ word)
  else .ok word c

/-- A whole number for `%d`: a number that is one, or another value whose text is a safe one; else
null. -/
def wholeNumber : Value → Value
  | .number x => if x.isInteger then .number x else .null
  | v => ((readSafeInteger? v.text.toList).map fun y => .number (.finite y)).getD .null

/-- A number for `%f`: a number as it is, or the text of one; else null. -/
def anyNumber : Value → Value
  | .number x => .number x
  | v => ((Decimal.read? v.text.toList).map fun d => .number d.toNumber).getD .null

/-- The comparison of a key with an argument; an absent argument is a test for null, whatever the
operation. -/
def compareArgument (read : Value → Value) (key : String) (op : Operation) (v : Value) :
    Qualifier :=
  if v.isAbsent then .ofKeyText key (.known .equalTo) .null else .ofKeyText key op (read v)

/-- The comparison of a key with the argument for a specifier. -/
def argumentComparison (key : String) (op : Operation) (specifier : Char) (v : Value)
    (c : Cursor) : Step Qualifier :=
  if specifier = '@' then .ok (.ofKeyText key op v) c
  else if specifier = 's' then
    .asking v (.ok (compareArgument (fun v => .string v.text) key op v) c)
  else if specifier = 'd' ∨ specifier = 'i' then
    .asking v (.ok (compareArgument wholeNumber key op v) c)
  else if specifier = 'f' then .asking v (.ok (compareArgument anyNumber key op v) c)
  else if specifier = 'K' then
    if v.isAbsent then .fail "argument for %K is null, needs to be a key"
    else .asking v (.ok (.keyComparison (.ofText key) op (.ofText v.text)) c)
  else if specifier = '%' then noPercent
  else .fail ("unknown format specification: %" ++ .ofList [specifier])

/-- A pattern in the place of a value, whose percent sign was taken. -/
def argumentValue (key : String) (op : Operation) (c : Cursor) : Step Qualifier :=
  match c.rest with
  | [] => .fail "incomplete format specification at end of input"
  | specifier :: r =>
    match c.args with
    | [] => noArgument
    | v :: args => argumentComparison key op specifier v ⟨r, args⟩

end RecordQuery.Format
