import RecordQuery.Expression
import RecordQuery.Operation
import RecordQuery.RawValue

/-!
# Qualifiers

A `Qualifier` is a condition on objects: a truth value, a comparison of a key with an operand or
with another key, the negation of a qualifier, a compound of qualifiers, or raw SQL that only a
database can check.
-/

namespace RecordQuery

/-- What a key is compared with: a constant, or a placeholder for one that is bound later. -/
inductive Operand where
  | constant (c : Constant)
  | placeholder (name : String)

namespace Operand

/-- A value as an operand: a placeholder stays one, all else becomes a constant. -/
def ofValue : Value → Operand
  | .placeholder name => placeholder name
  | v => constant v.normalize

/-- The operand as an expression; the constant null is the expression null. -/
def toExpression : Operand → Expression
  | placeholder name => .placeholder name
  | constant .null => .null
  | constant c => .constant c

/-- The operand as it is written. -/
def text : Operand → String
  | constant c => c.text
  | placeholder name => "$" ++ name

/-- Equality of operands. -/
def isEqual : Operand → Operand → Bool
  | constant a, constant b => a.isEqual b
  | placeholder a, placeholder b => a == b
  | _, _ => false

/-- The name of the value that is still to be bound. -/
def name? : Operand → Option String
  | placeholder name => some name
  | constant _ => none

end Operand

/-- A part of raw SQL: text that is kept as it is, a placeholder, or a bound value. -/
inductive SqlPart where
  | raw (sql : String)
  | placeholder (name : String)
  | value (v : Option RawValue)
  deriving DecidableEq

namespace SqlPart

/-- The characters of raw text that a backslash precedes where it is written. -/
def needsEscape (c : Char) : Bool :=
  c == Text.backslash || c == ']' || c == '$'

/-- The part as it is written. -/
def text : SqlPart → String
  | raw sql => .ofList (Text.escape needsEscape sql.toList)
  | placeholder name => "$" ++ name
  | value v => RawValue.textOrNull v

/-- Equality of parts. -/
def isEqual : SqlPart → SqlPart → Bool
  | raw a, raw b => a == b
  | placeholder a, placeholder b => a == b
  | value a, value b => RawValue.equalOrNull a b
  | _, _ => false

/-- The name of the value that is still to be bound. -/
def name? : SqlPart → Option String
  | placeholder name => some name
  | _ => none

end SqlPart

/-- How a compound joins its parts. -/
inductive Connective where
  | and
  | or
  deriving DecidableEq, Repr

namespace Connective

/-- The word for a connective. -/
def word : Connective → String
  | and => "AND"
  | or => "OR"

/-- What a compound without parts amounts to. -/
def unit : Connective → Bool
  | and => true
  | or => false

end Connective

/-- A condition on objects. -/
inductive Qualifier where
  /-- The condition that always or never holds. -/
  | always (value : Bool)
  /-- A comparison of the value at a key with an operand. -/
  | keyValue (key : Key) (op : Operation) (operand : Operand)
  /-- A comparison of the values at two keys of one object. -/
  | keyComparison (left : Key) (op : Operation) (right : Key)
  | not (q : Qualifier)
  | compound (c : Connective) (parts : List Qualifier)
  | sql (parts : List SqlPart)

namespace Qualifier

instance : Inhabited Qualifier := ⟨always true⟩

/-- The comparison of the key that a text writes with a value. -/
def ofKeyText (key : String) (op : Operation) (v : Value) : Qualifier :=
  keyValue (.ofText key) op (.ofValue v)

/-- The test that the value at a key is true. -/
def isTrue (key : String) : Qualifier :=
  keyValue (.ofText key) (.known .equalTo) (.constant (.bool true))

/-- A condition without parts, negated or not. -/
def isEmpty : Qualifier → Bool
  | not q => q.isEmpty
  | compound _ parts => parts.isEmpty
  | sql parts => parts.isEmpty
  | _ => false

/-- The condition can be evaluated on an object; raw SQL cannot. -/
def isEvaluatable : Qualifier → Bool
  | sql _ => false
  | _ => true

/-- The condition is a compound. -/
def isCompound : Qualifier → Bool
  | compound _ _ => true
  | _ => false

/-- The condition is a single comparison. -/
def isComparison : Qualifier → Bool
  | keyValue _ _ _ => true
  | keyComparison _ _ _ => true
  | _ => false

mutual

/-- Equality, part by part and in order. -/
def isEqual : Qualifier → Qualifier → Bool
  | always a, always b => a == b
  | keyValue k op v, keyValue k' op' v' => decide (op = op') && k.isEqual k' && v.isEqual v'
  | keyComparison l op r, keyComparison l' op' r' =>
    decide (op = op') && l.isEqual l' && r.isEqual r'
  | not a, not b => a.isEqual b
  | compound c as, compound d bs => decide (c = d) && areEqual as bs
  | sql as, sql bs => as.length == bs.length && (as.zip bs).all fun p => p.1.isEqual p.2
  | _, _ => false

/-- Equality of lists of parts. -/
def areEqual : List Qualifier → List Qualifier → Bool
  | [], [] => true
  | a :: as, b :: bs => a.isEqual b && areEqual as bs
  | _, _ => false

end

end Qualifier

end RecordQuery
