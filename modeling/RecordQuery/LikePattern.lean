import RecordQuery.Regex

/-!
# Like patterns

A pattern is a text in which `*` stands for any run of characters and `?` for any single one. It is
compiled to a regular expression that matches whole texts.
-/

namespace RecordQuery.LikePattern

/-- The characters of a pattern that are written with a backslash before them. -/
def escaped : List Char :=
  [Text.backslash, '^', '$', '.', '*', '+', '?', '(', ')', '[', ']', '\x7b', '\x7d', '|', '/']

/-- What a character of a pattern becomes in the regular expression. -/
def pieceSource (c : Char) : List Char :=
  if c = '*' then "[\\s\\S]*".toList
  else if c = '?' then "[\\s\\S]".toList
  else Text.escape escaped.contains [c]

/-- The source of the regular expression. -/
def source (pattern : String) : String :=
  .ofList ('^' :: pattern.toList.flatMap pieceSource ++ ['$'])

/-- The regular expression of a pattern. -/
def compile? (pattern : String) (ignoreCase : Bool) : Option Regex :=
  Regex.compile? (source pattern) ignoreCase

/-- The whole text matches the pattern. -/
def accepts (pattern : String) (ignoreCase : Bool) (text : String) : Bool :=
  (compile? pattern ignoreCase).any (·.test text)

end RecordQuery.LikePattern
