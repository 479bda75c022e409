import RecordQuery.Constant
import RecordQuery.Key

/-!
# Expressions

What can stand on either side of a comparison: keys, constants, null, literal SQL, and placeholders
for values that are bound later.
-/

namespace RecordQuery

/-- One side of a comparison. -/
inductive Expression where
  | key (k : Key)
  | constant (c : Constant)
  | null
  /-- SQL that is handed on as it is. -/
  | literalSql (sql : String)
  | placeholder (name : String)

namespace Expression

/-- The expression as text. -/
def text : Expression → String
  | key k => k.text
  | constant c => c.text
  | null => "NULL"
  | literalSql sql => sql
  | placeholder name => "$" ++ name

/-- Equality of expressions; a constant null is not the expression null. -/
def isEqual : Expression → Expression → Bool
  | key a, key b => a.isEqual b
  | constant a, constant b => a.isEqual b
  | null, null => true
  | literalSql a, literalSql b => a == b
  | placeholder a, placeholder b => a == b
  | _, _ => false

/-- The expression is still without a value. -/
def hasUnresolvedBindings : Expression → Bool
  | placeholder _ => true
  | _ => false

/-- The keys that the expression reads. -/
def referencedKeys : Expression → List String
  | key k => [k.text]
  | _ => []

/-- The names of the values that the expression waits for. -/
def bindingKeys : Expression → List String
  | placeholder name => [name]
  | _ => []

/-- The value of the expression for an object, which for a placeholder is the object of bindings;
literal SQL has none. -/
def valueFor? (object : Value) : Expression → Option Value
  | key k => some (k.valueIn object)
  | constant c => some c.toValue
  | null => some .null
  | literalSql _ => none
  | placeholder name => some (object.lookupText name)

end Expression

end RecordQuery
