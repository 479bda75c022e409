import RecordQuery.Format.Argument
import RecordQuery.Format.Literal

/-!
# Clauses of the condition format

A clause is a single comparison: a key, an operation, and a value, a placeholder, an argument or
another key. A key alone is the test that its value is true.
-/

namespace RecordQuery.Format

/-- The test for null or for not null that `NULL` or `NOT NULL` after `IS` makes. -/
def nullTest? (cs : List Char) : Option (Relation × List Char) :=
  let cs := skipSpaces cs
  match stripKeyword? "NOT" cs with
  | some r => (stripKeyword? "NULL" (skipSpaces r)).map fun r => (.notEqualTo, r)
  | none => (stripKeyword? "NULL" cs).map fun r => (.equalTo, r)

/-- The failure of an operation that nothing follows. -/
def noOperand {α : Type} (key token : String) : Step α :=
  .fail ("expected value or key after operation (op=" ++ token ++ ", id=" ++ key ++ ")")

/-- A constant or a list. A parenthesis opens a list after `IN`, and else if it looks like one. -/
def constantOrList (size : Nat) (op : Operation) (c : Cursor) : Step Value :=
  match strip? ['('] c.rest with
  | some r =>
    if op = .known .isIn ∨ listAhead r then valueList size (c.at r) else constant size c
  | none => constant size c

/-- What an operation compares a key with. -/
def operand (size : Nat) (key token : String) (c : Cursor) : Step Qualifier :=
  let op := Operation.ofToken token
  let c := c.at (skipSpaces c.rest)
  match c.rest with
  | [] => noOperand key token
  | '$' :: r =>
    match takeName? r with
    | some (name, r) => .ok (.keyValue (.ofText key) op (.placeholder name)) (c.at r)
    | none => .fail "expected variable name after '$'"
  | '%' :: r => argumentValue key op (c.at r)
  | _ =>
    if startsConstant c.rest then
      (constantOrList size op c).map fun v => .ofKeyText key op v
    else
      match takeName? c.rest with
      | some (name, r) => .ok (.keyComparison (.ofText key) op (.ofText name)) (c.at r)
      | none => noOperand key token

/-- What follows the token of an operation. -/
def afterOperation (size : Nat) (key token : String) (c : Cursor) : Step Qualifier :=
  match if token = "IS" then nullTest? c.rest else none with
  | some (r, rest) => .ok (.keyValue (.ofText key) (.known r) (.constant .null)) (c.at rest)
  | none => operand size key token c

/-- A key stands alone where the text ends, or before a connective or a closing parenthesis. -/
def endsBareKey (cs : List Char) : Bool :=
  cs.isEmpty || startsWithKeyword "AND" cs || startsWithKeyword "OR" cs || startsWith ")" cs

/-- What follows a key. -/
def afterKey (size : Nat) (key : String) (c : Cursor) : Step Qualifier :=
  let c := c.at (skipSpaces c.rest)
  if endsBareKey c.rest then .ok (.isTrue key) c
  else
    match takeOperation? c.rest with
    | none => .ok (.isTrue key) c
    | some (word, r) =>
      (resolve word (c.at r)).bind fun token c => afterOperation size key token c

/-- A clause. -/
def clause (size : Nat) (c : Cursor) : Step Qualifier :=
  match takeName? c.rest with
  | none => .fail (c.message size "expected key")
  | some (word, r) => (resolve word (c.at r)).bind fun key c => afterKey size key c

end RecordQuery.Format
