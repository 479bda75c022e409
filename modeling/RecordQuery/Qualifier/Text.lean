import RecordQuery.Qualifier.Basic

/-!
# Writing qualifiers

`Qualifier.text` is the canonical form, which can be read back; `Qualifier.description` shows the
structure and is for people only.
-/

namespace RecordQuery.Qualifier

/-- A comparison with an operand as it is written; being null has a form of its own. -/
def comparisonText (key : String) : Operation → Operand → String
  | .known .equalTo, .constant .null => key ++ " IS NULL"
  | .known .notEqualTo, .constant .null => key ++ " IS NOT NULL"
  | op, v => key ++ " " ++ op.token ++ " " ++ v.text

mutual

/-- The canonical form of a qualifier. Compounds inside compounds stand in parentheses, and so does
everything but a single comparison after NOT. -/
def text : Qualifier → String
  | always value => if value then "*true*" else "*false*"
  | keyValue key op v => comparisonText key.text op v
  | keyComparison left op right => left.text ++ " " ++ op.token ++ " " ++ right.text
  | not q => if q.isComparison then "NOT " ++ q.text else "NOT (" ++ q.text ++ ")"
  | compound c [] => if c.unit then "*true*" else "*false*"
  | compound _ [q] => q.text
  | compound c parts => String.intercalate (" " ++ c.word ++ " ") (partTexts parts)
  | sql parts => "SQL[" ++ String.join (parts.map SqlPart.text) ++ "]"

/-- The written forms of the parts of a compound. -/
def partTexts : List Qualifier → List String
  | [] => []
  | q :: qs => (if q.isCompound then "(" ++ q.text ++ ")" else q.text) :: partTexts qs

end

mutual

/-- The structure of a qualifier in words. -/
def description : Qualifier → String
  | always value => "<BooleanQualifier: " ++ (if value then "TRUE" else "FALSE") ++ ">"
  | keyValue key op v => "<KeyValueQualifier: " ++ (keyValue key op v).text ++ ">"
  | keyComparison left op right =>
    "<KeyComparisonQualifier: " ++ (keyComparison left op right).text ++ ">"
  | not q => "<NotQualifier: " ++ q.description ++ ">"
  | compound c parts =>
    "<CompoundQualifier: " ++ c.word ++ "(" ++ String.intercalate ", " (descriptions parts) ++ ")>"
  | sql parts => "<SQLQualifier: " ++ (sql parts).text ++ ">"

/-- The descriptions of the qualifiers of a list. -/
def descriptions : List Qualifier → List String
  | [] => []
  | q :: qs => q.description :: descriptions qs

end

end RecordQuery.Qualifier
