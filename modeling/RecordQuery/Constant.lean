import RecordQuery.Text.Quoted
import RecordQuery.Text.Units
import RecordQuery.Value

/-!
# Constants

The closed set of values that conditions carry and compare: null, truth values, finite numbers,
texts, instants, and arrays of these. Whatever is handed in or read from an object becomes a
constant first (`Value.normalize`).

* `Constant.isEqual`, `Constant.order?`: the equality and the partial order of constants;
* `Constant.text`: a constant as it is written in a condition;
* `Constant.toValue`, `Value.isConstant`: constants among the values.
-/

namespace RecordQuery

/-- A value that a condition can carry or compare. -/
inductive Constant where
  | null
  | bool (b : Bool)
  | number (x : Double)
  | string (s : String)
  | date (t : Instant)
  | array (items : List Constant)

instance : Inhabited Constant := ⟨.null⟩

/-! ## Normalization -/

namespace Value

/-- A number as a constant; only finite ones are. -/
def normalizeNumber : Number → Constant
  | .finite x => .number x
  | _ => .null

mutual

/-- The constant that stands for a value. What is absent, not finite or no instant is null, a
collection is the array of its elements and a map that of its values, and everything else is its
text. It is not asked of arrays, which alone can lack one. -/
def normalize : Value → Constant
  | missing => .null
  | null => .null
  | bool b => .bool b
  | number x => normalizeNumber x
  | bigInteger n => normalizeNumber (.ofInt n)
  | string s => .string s
  | date none => .null
  | date (some t) => .date t
  | array items => .array (normalizeEach items)
  | set items => .array (normalizeEach items)
  | sequence _ items => .array (normalizeEach items)
  | map entries => .array (normalizeEntries entries)
  | v => .string v.text

/-- The constants that stand for the values of a list. -/
def normalizeEach : List Value → List Constant
  | [] => []
  | v :: vs => v.normalize :: normalizeEach vs

/-- The constants that stand for the values of entries. -/
def normalizeEntries : List (String × Value) → List Constant
  | [] => []
  | (_, v) :: es => v.normalize :: normalizeEntries es

end

mutual

/-- The value is a constant as it stands. -/
def isConstant : Value → Bool
  | null => true
  | bool _ => true
  | string _ => true
  | number x => x.isFinite
  | date t => t.isSome
  | array items => allConstant items
  | _ => false

/-- All values of a list are constants as they stand. -/
def allConstant : List Value → Bool
  | [] => true
  | v :: vs => v.isConstant && allConstant vs

end

theorem normalizeEach_eq_map (vs : List Value) : normalizeEach vs = vs.map normalize := by
  induction vs with
  | nil => rfl
  | cons v vs ih => simp [normalizeEach, ih]

end Value

namespace Constant

mutual

/-- A constant as a value. -/
def toValue : Constant → Value
  | null => .null
  | bool b => .bool b
  | number x => .number (.finite x)
  | string s => .string s
  | date t => .date (some t)
  | array items => .array (toValues items)

/-- The constants of a list as values. -/
def toValues : List Constant → List Value
  | [] => []
  | c :: cs => c.toValue :: toValues cs

end

theorem toValues_eq_map (cs : List Constant) : toValues cs = cs.map toValue := by
  induction cs with
  | nil => rfl
  | cons c cs ih => simp [toValues, ih]

/-! ## Equality and order -/

mutual

/-- Equality: of one kind, and equal as such. The two zeros are equal, and arrays are element by
element. -/
def isEqual : Constant → Constant → Bool
  | null, null => true
  | bool a, bool b => a == b
  | number a, number b => a.same b
  | string a, string b => a == b
  | date a, date b => a.millis == b.millis
  | array as, array bs => areEqual as bs
  | _, _ => false

/-- The constants of two lists are equal one by one. -/
def areEqual : List Constant → List Constant → Bool
  | [], [] => true
  | a :: as, b :: bs => a.isEqual b && areEqual as bs
  | _, _ => false

end

/-- The order of two constants of one kind: numbers and instants by size, texts by code units, and
false before true. Null, arrays and constants of different kinds are not ordered. -/
def order? : Constant → Constant → Option Ordering
  | number a, number b => some (a.order b)
  | string a, string b => some (Text.order a b)
  | bool a, bool b => some (compare a.toNat b.toNat)
  | date a, date b => some (compare a.millis b.millis)
  | _, _ => none

/-- One of the numbers -1, 0 and 1 that stand for an order. -/
def signOf : Ordering → Number
  | .lt => .ofInt (-1)
  | .eq => .ofInt 0
  | .gt => .ofInt 1

/-- How far a constant lies above another one: the difference of two numbers, two truth values or
two instants, and the sign of the order of two texts. -/
def distance? : Constant → Constant → Option Number
  | number a, number b => some (.difference a b)
  | string a, string b => some (signOf (Text.order a b))
  | bool a, bool b => some (.ofInt (a.toNat - b.toNat))
  | date a, date b => some (.ofInt (a.millis - b.millis))
  | _, _ => none

/-! ## Description -/

/-- The name of the kind of a constant. -/
def kind : Constant → String
  | null => "null"
  | bool _ => "boolean"
  | number _ => "number"
  | string _ => "string"
  | date _ => "date"
  | array _ => "array"

/-- The characters that a backslash precedes inside a quoted text. -/
def needsEscape (c : Char) : Bool :=
  c == Text.backslash || c == Text.quote

/-- A text in single quotes. -/
def quoted (s : String) : String :=
  .ofList (Text.quote :: Text.escape needsEscape s.toList ++ [Text.quote])

mutual

/-- A constant as it is written in a condition. -/
def text : Constant → String
  | null => "NULL"
  | bool b => if b then "true" else "false"
  | number x => x.text
  | string s => quoted s
  | date t => quoted t.isoText
  | array items => "(" ++ String.intercalate ", " (texts items) ++ ")"

/-- The constants of a list as they are written. -/
def texts : List Constant → List String
  | [] => []
  | c :: cs => c.text :: texts cs

end

theorem texts_eq_map (cs : List Constant) : texts cs = cs.map text := by
  induction cs with
  | nil => rfl
  | cons c cs ih => simp [texts, ih]

end Constant

end RecordQuery
