import RecordQuery.Format.Lexeme
import RecordQuery.Format.Step

/-!
# Literals of the condition format

A literal is a quoted text, a number, or one of the words for true, false and null. A constant is a
literal, which a cast such as `(Date)` may precede without an effect, and a list is literals between
parentheses.
-/

namespace RecordQuery.Format

/-- The words that are literals, in the order in which they are tried. -/
def literalWords : List (String × Value) :=
  [("true", .bool true), ("YES", .bool true), ("false", .bool false), ("NO", .bool false),
   ("NULL", .null), ("null", .null), ("nil", .null)]

/-- The word literal in front of a text, and what is left. -/
def takeLiteralWord? (cs : List Char) : Option (Value × List Char) :=
  literalWords.findSome? fun w => (stripKeyword? w.1 cs).map fun r => (w.2, r)

/-- The text starts like a constant or a list. -/
def startsConstant (cs : List Char) : Bool :=
  startsWith "(" cs || startsWith "\x27" cs || startsWith "\"" cs || startsNumeral cs
    || (takeLiteralWord? cs).isSome

/-- What follows an opening parenthesis is the rest of a list rather than a cast. -/
def listAhead (cs : List Char) : Bool :=
  let cs := skipSpaces cs
  startsWith ")" cs || (!startsWith "(" cs && startsConstant cs)

/-- A text between quotes of the given kind, the first of which was taken. -/
def quotedText (q : Char) (c : Cursor) : Step Value :=
  match quotedBody q c.rest with
  | .ok (text, r) => .ok (.string (.ofList text)) (c.at r)
  | .error .unfinishedEscape => .fail "escape in quoted string not finished"
  | .error .unclosed => .fail ("quoted string not closed (expected " ++ .ofList [q] ++ ")")

/-- A number whose first character is given. -/
def numeral (first : Char) (c : Cursor) : Step Value :=
  let (tail, r) := numeralTail first c.rest
  match Decimal.read? (first :: tail) with
  | some d => .ok (.number d.toNumber) (c.at r)
  | none => .fail ("failed to parse number: '" ++ .ofList (first :: tail) ++ "'")

/-- A literal. -/
def literal (size : Nat) (c : Cursor) : Step Value :=
  match c.rest with
  | [] => .fail (c.message size "expected constant")
  | d :: r =>
    if d = Text.quote ∨ d = Text.doubleQuote then quotedText d (c.at r)
    else if startsNumeral (d :: r) then numeral d (c.at r)
    else match takeLiteralWord? (d :: r) with
      | some (v, r) => .ok v (c.at r)
      | none => .fail (c.message size "expected constant")

/-- The class of a cast whose opening parenthesis was taken. -/
def castClass (c : Cursor) : Step String :=
  match takeName? (skipSpaces c.rest) with
  | none => .fail "expected class cast identifier after parenthesis"
  | some (name, r) =>
    match strip? [')'] (skipSpaces r) with
    | some r => .ok name (c.at r)
    | none => .fail "expected closing parenthesis after class cast"

/-- The warning that a cast is not carried out, which null does without. -/
def castWarning (name : String) (v : Value) : List LogEntry :=
  if v.isAbsent then [] else [.warn ("not handling cast to '" ++ name ++ "'") [v]]

/-- A literal with or without a cast before it. -/
def constant (size : Nat) (c : Cursor) : Step Value :=
  match strip? ['('] c.rest with
  | none => literal size c
  | some r =>
    (castClass (c.at r)).bind fun name c =>
      let c := c.at (skipSpaces c.rest)
      if c.rest.isEmpty then .fail ("expected constant after cast to '" ++ name ++ "'")
      else (literal size c).bind fun v c => .after (castWarning name v) (.ok v c)

/-- The literals of a list up to its closing parenthesis, with at most `n` of them. -/
def listItems (size : Nat) : Nat → Cursor → Step (List Value)
  | 0, _ => .stop
  | n + 1, c =>
    let c := c.at (skipSpaces c.rest)
    if c.rest.isEmpty then .fail "value list after IN is not closed"
    else (literal size c).bind fun v c =>
      let c := c.at (skipSpaces c.rest)
      match c.rest with
      | ',' :: r => (listItems size n (c.at r)).map (v :: ·)
      | ')' :: r => .ok [v] (c.at r)
      | _ => .fail (c.message size "expected ',' or ')' in value list")

/-- A list whose opening parenthesis was taken. Every literal takes a character, so there are no
more of them than characters. -/
def valueList (size : Nat) (c : Cursor) : Step Value :=
  let c := c.at (skipSpaces c.rest)
  match strip? [')'] c.rest with
  | some r => .ok (.array []) (c.at r)
  | none => (listItems size (c.rest.length + 1) c).map .array

end RecordQuery.Format
