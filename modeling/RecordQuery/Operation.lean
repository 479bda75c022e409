/-!
# Comparison operations

The relations that can be evaluated or handed on to a database, and tokens that name no known
relation and are kept as they were written. Every relation has one token that it is written with,
and several that it is read from; `Operation.ofToken_token` says that the written one is read back.
-/

namespace RecordQuery

/-- A known relation between two values. -/
inductive Relation where
  | equalTo
  | notEqualTo
  | greaterThan
  | greaterThanOrEqual
  | lessThan
  | lessThanOrEqual
  | isIn
  | like
  | caseInsensitiveLike
  | sqlLike
  | sqlCaseInsensitiveLike
  deriving DecidableEq, Repr

namespace Relation

/-- The token that a relation is written with. -/
def token : Relation → String
  | equalTo => "="
  | notEqualTo => "!="
  | greaterThan => ">"
  | greaterThanOrEqual => ">="
  | lessThan => "<"
  | lessThanOrEqual => "<="
  | isIn => "IN"
  | like => "LIKE"
  | caseInsensitiveLike => "ILIKE"
  | sqlLike => "SQLLIKE"
  | sqlCaseInsensitiveLike => "SQLILIKE"

/-- The tokens that are read as relations. -/
def byToken : List (String × Relation) :=
  [("=", equalTo), ("==", equalTo), ("!=", notEqualTo),
   (">", greaterThan), (">=", greaterThanOrEqual), ("=>", greaterThanOrEqual),
   ("<", lessThan), ("<=", lessThanOrEqual), ("=<", lessThanOrEqual),
   ("IN", isIn), ("LIKE", like), ("like", like),
   ("ILIKE", caseInsensitiveLike), ("ilike", caseInsensitiveLike),
   ("caseInsensitiveLike", caseInsensitiveLike), ("caseInsensitiveLike:", caseInsensitiveLike),
   ("SQLLIKE", sqlLike), ("SQLILIKE", sqlCaseInsensitiveLike)]

end Relation

/-- A known relation, or a token that names none. -/
inductive Operation where
  | known (r : Relation)
  | other (token : String)
  deriving DecidableEq, Repr

namespace Operation

/-- The operation that a token names. -/
def ofToken (token : String) : Operation :=
  match Relation.byToken.lookup token with
  | some r => known r
  | none => other token

/-- The token that an operation is written with. -/
def token : Operation → String
  | known r => r.token
  | other token => token

/-- The token of a relation is read back as the relation. -/
theorem ofToken_token (r : Relation) : ofToken r.token = known r := by
  cases r <;> decide

end Operation

end RecordQuery
