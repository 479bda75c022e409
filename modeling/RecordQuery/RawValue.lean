import RecordQuery.Text.Quoted
import RecordQuery.Value

/-!
# Raw SQL values

The values that can stand inside raw SQL: numbers, texts, and lists of whole numbers or of texts.

* `RawValue.ofValue?`: the raw form of a value, if it has one;
* `RawValue.text`: how it is written, texts in quotes that are doubled inside;
* `RawValue.isEqual`: one kind and one written form.
-/

namespace RecordQuery

/-- A value inside raw SQL. -/
inductive RawValue where
  | int (x : Number)
  | double (x : Number)
  | string (s : String)
  | ints (xs : List Number)
  | strings (xs : List String)
  deriving DecidableEq

namespace RawValue

/-- The kind of a raw value. -/
inductive Kind where
  | int
  | double
  | string
  | ints
  | strings
  deriving DecidableEq

/-- The kind of a raw value. -/
def kind : RawValue → Kind
  | int _ => .int
  | double _ => .double
  | string _ => .string
  | ints _ => .ints
  | strings _ => .strings

/-- An element of a raw list: a whole number or a text. -/
def element? : Value → Option (Number ⊕ String)
  | .number x => if x.isInteger then some (.inl x) else none
  | .bigInteger n => some (.inl (.ofInt n))
  | .string s => some (.inr s)
  | _ => none

/-- The whole numbers among the elements. -/
def numbersOf (es : List (Number ⊕ String)) : List Number :=
  es.filterMap fun
    | .inl x => some x
    | .inr _ => none

/-- The texts among the elements. -/
def textsOf (es : List (Number ⊕ String)) : List String :=
  es.filterMap fun
    | .inl _ => none
    | .inr s => some s

/-- A list of elements that are all of one kind; one without elements is a list of whole numbers. -/
def ofElements? (es : List (Number ⊕ String)) : Option RawValue :=
  if (textsOf es).isEmpty then some (ints (numbersOf es))
  else if (numbersOf es).isEmpty then some (strings (textsOf es))
  else none

/-- A list of values as a raw list, if all have a form as elements of one kind. -/
def ofList? (vs : List Value) : Option RawValue :=
  (vs.mapM element?).bind ofElements?

/-- The raw form of a value. -/
def ofValue? : Value → Option RawValue
  | .string s => some (string s)
  | .bigInteger n => some (int (.ofInt n))
  | .number x => some (if x.isInteger then int x else double x)
  | .set items => ofList? items
  | .array items => ofList? items
  | _ => none

/-- A text in single quotes, quotes inside it doubled. -/
def quoted (s : String) : String :=
  .ofList (Text.quote :: Text.double s.toList ++ [Text.quote])

/-- How a raw value is written. -/
def text : RawValue → String
  | int x => x.text
  | double x => x.text
  | string s => quoted s
  | ints xs => "(" ++ String.intercalate ", " (xs.map Number.text) ++ ")"
  | strings xs => "(" ++ String.intercalate ", " (xs.map quoted) ++ ")"

/-- Raw values are equal if they are of one kind and are written alike. -/
def isEqual (a b : RawValue) : Bool :=
  decide (a.kind = b.kind) && a.text == b.text

/-- How an optional raw value is written. -/
def textOrNull : Option RawValue → String
  | none => "NULL"
  | some v => v.text

/-- Equality of optional raw values. -/
def equalOrNull : Option RawValue → Option RawValue → Bool
  | none, none => true
  | some a, some b => a.isEqual b
  | _, _ => false

end RawValue

end RecordQuery
