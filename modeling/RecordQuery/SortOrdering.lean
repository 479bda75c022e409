import RecordQuery.Constant
import RecordQuery.Key
import RecordQuery.Text.Blank
import RecordQuery.Text.Case

/-!
# Sort orderings

A `SortOrdering` compares objects by the value at a key. A list of orderings compares by the first
ordering that tells two objects apart, and `SortOrdering.sort` is the stable sort by it.

* `SortOrdering.parse?` reads a list such as `name,-balance`;
* null comes before all else; values that are not ordered, and orderings with an unknown selector,
  tell nothing apart;
* what is missing altogether goes to the end, whatever the orderings.
-/

namespace RecordQuery

/-- How the values at a key are ordered. -/
inductive SortSelector where
  | ascending
  | descending
  /-- Ascending, texts in lower case. -/
  | ascendingFolded
  /-- Descending, texts in lower case. -/
  | descendingFolded
  | other (token : String)
  deriving DecidableEq

namespace SortSelector

/-- The token that a selector is written with. -/
def token : SortSelector → String
  | ascending => "ASC"
  | descending => "DESC"
  | ascendingFolded => "IASC"
  | descendingFolded => "IDESC"
  | other token => token

/-- The selectors by their tokens. -/
def byToken : List (String × SortSelector) :=
  [("ASC", ascending), ("DESC", descending), ("CASE ASC", ascendingFolded),
   ("IASC", ascendingFolded), ("CASE DESC", descendingFolded), ("IDESC", descendingFolded)]

/-- The selector that a token names in any case; any other token is kept as it is written. -/
def ofToken (token : String) : SortSelector :=
  (byToken.lookup (Text.capitals token)).getD (other token)

/-- Texts are compared in lower case. -/
def isFolded : SortSelector → Bool
  | ascendingFolded => true
  | descendingFolded => true
  | _ => false

/-- Greater values come first. -/
def isDescending : SortSelector → Bool
  | descending => true
  | descendingFolded => true
  | _ => false

/-- The selector names a known order. -/
def isKnown : SortSelector → Bool
  | other _ => false
  | _ => true

end SortSelector

/-- A key with the order of its values. -/
structure SortOrdering where
  key : Key
  selector : SortSelector

namespace SortOrdering

/-- The ordering by a key that a text writes. -/
def ofText (key : String) (selector : SortSelector) : SortOrdering :=
  ⟨.ofText key, selector⟩

/-! ## Reading and writing -/

/-- An item of a list of orderings: a key, before which a plus sign asks for ascending and a minus
sign for descending order. A sign alone is a key. -/
def ofItem (item : List Char) : SortOrdering :=
  match item with
  | '+' :: c :: cs => ofText (.ofList (c :: cs)) .ascending
  | '-' :: c :: cs => ofText (.ofList (c :: cs)) .descending
  | cs => ofText (.ofList cs) .ascending

/-- The orderings that a text lists between commas; blank items do not count. The empty text is no
list. -/
def parse? (text : String) : Option (List SortOrdering) :=
  if text = "" then none
  else
    let items := (Text.fields ',' text.toList).map Text.trim
    some ((items.filter fun item => !item.isEmpty).map ofItem)

/-- The ordering as text. -/
def text (o : SortOrdering) : String :=
  o.key.text ++ " " ++ o.selector.token

/-- Equality: one text of the key, and one selector. -/
def isEqual (a b : SortOrdering) : Bool :=
  a.key.text == b.key.text && decide (a.selector = b.selector)

/-- The keys that the ordering reads. -/
def referencedKeys (o : SortOrdering) : List String :=
  [o.key.text]

/-! ## Comparing -/

/-- The constant by which an object is ordered. -/
def sortValue (o : SortOrdering) (object : Value) : Constant :=
  match (o.key.valueIn object).normalize with
  | .string s => .string (if o.selector.isFolded then Text.lower s else s)
  | c => c

/-- The order of two constants, null first. Constants that are not ordered are not told apart. -/
def orderConstants : Constant → Constant → Ordering
  | .null, .null => .eq
  | .null, _ => .lt
  | _, .null => .gt
  | a, b => (a.order? b).getD .eq

/-- The order of two objects by one ordering. -/
def compare (o : SortOrdering) (a b : Value) : Ordering :=
  if o.selector.isKnown then
    let order := orderConstants (o.sortValue a) (o.sortValue b)
    if o.selector.isDescending then order.swap else order
  else .eq

/-- The order of two objects by the first ordering that tells them apart. -/
def compareBy : List SortOrdering → Value → Value → Ordering
  | [], _, _ => .eq
  | o :: os, a, b => (o.compare a b).then (compareBy os a b)

/-- The object is not missing altogether. -/
def isPresent : Value → Bool
  | .missing => false
  | _ => true

/-- The objects in the order of the orderings, those that are not told apart in the order in which
they were, and those that are missing at the end. Without orderings nothing moves. -/
def sort (os : List SortOrdering) (objects : List Value) : List Value :=
  if os.isEmpty then objects
  else
    (objects.filter isPresent).mergeSort (fun a b => (compareBy os a b).isLE)
      ++ objects.filter fun v => !isPresent v

end SortOrdering

end RecordQuery
