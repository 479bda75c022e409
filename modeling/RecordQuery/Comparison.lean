import RecordQuery.Constant
import RecordQuery.LikePattern
import RecordQuery.Log
import RecordQuery.Operation

/-!
# Comparing constants

`Operation.compare` evaluates an operation on two constants. What cannot be compared is logged and
counts as false.
-/

namespace RecordQuery

namespace Text

/-- The first text occurs in the second. -/
def occursIn (needle : List Char) : List Char → Bool
  | [] => needle.isEmpty
  | c :: cs => needle.isPrefixOf (c :: cs) || occursIn needle cs

end Text

namespace Operation

/-- The false answer of an operation that cannot be evaluated on two constants. -/
def unsupported (op : Operation) (a b : Constant) : Logged Bool :=
  .noting (.error ("attempt to evaluate comparison \"" ++ op.token ++ "\" dynamically (" ++ a.kind
    ++ " vs " ++ b.kind ++ ")") [a.toValue, b.toValue]) false

/-- One constant is below another one. Null is below nothing and above nothing. -/
def isBelow (op : Operation) : Constant → Constant → Logged Bool
  | .null, _ => .quiet false
  | _, .null => .quiet false
  | a, b =>
    match a.order? b with
    | some o => .quiet (o == .lt)
    | none => op.unsupported a b

/-- Membership: in an array by equality, in a text as a part of it, and in null never. -/
def isMember (op : Operation) (a : Constant) : Constant → Logged Bool
  | .null => .quiet false
  | .array items => .quiet (items.any a.isEqual)
  | .string t =>
    match a with
    | .string s => .quiet (Text.occursIn s.toList t.toList)
    | _ => op.unsupported a (.string t)
  | b => op.unsupported a b

/-- A text matches a pattern. Null is like null, and no text is like what is no text. -/
def isLike (op : Operation) (ignoreCase : Bool) : Constant → Constant → Logged Bool
  | .null, .null => .quiet true
  | .string s, .string pattern => .quiet (LikePattern.accepts pattern ignoreCase s)
  | .string _, _ => .quiet false
  | a, b => op.unsupported a b

/-- The value of an operation on two constants. -/
def compare (op : Operation) (a b : Constant) : Logged Bool :=
  match op with
  | known .equalTo => .quiet (a.isEqual b)
  | known .notEqualTo => .quiet !a.isEqual b
  | known .lessThan => op.isBelow a b
  | known .greaterThan => op.isBelow b a
  | known .lessThanOrEqual => if a.isEqual b then .quiet true else op.isBelow a b
  | known .greaterThanOrEqual => if a.isEqual b then .quiet true else op.isBelow b a
  | known .isIn => op.isMember a b
  | known .like => op.isLike false a b
  | known .caseInsensitiveLike => op.isLike true a b
  | known .sqlLike => op.unsupported a b
  | known .sqlCaseInsensitiveLike => op.unsupported a b
  | other _ => op.unsupported a b

end Operation

end RecordQuery
