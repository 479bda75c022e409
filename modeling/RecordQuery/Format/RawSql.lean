import RecordQuery.Format.Lexeme
import RecordQuery.Format.Step
import RecordQuery.Qualifier.Basic

/-!
# Raw SQL in the condition format

The body of `SQL[…]`: text in which a backslash stands for the character after it, and placeholders.
-/

namespace RecordQuery.Format

/-- The characters that end raw text unless a backslash precedes them. -/
def endsSqlText (c : Char) : Bool :=
  c == ']' || c == '$'

/-- The raw text in front, and what is left. A backslash that nothing follows stands for itself. -/
def takeSqlText : List Char → List Char × List Char
  | [] => ([], [])
  | [c] => if endsSqlText c then ([], [c]) else ([c], [])
  | c :: d :: cs =>
    if endsSqlText c then ([], c :: d :: cs)
    else if c = Text.backslash then consRead d (takeSqlText cs)
    else consRead c (takeSqlText (d :: cs))

theorem length_takeSqlText_le (cs : List Char) : (takeSqlText cs).2.length ≤ cs.length := by
  fun_induction takeSqlText cs with
  | case1 => simp
  | case2 => simp
  | case3 => simp
  | case4 => simp
  | case5 d cs h ih =>
    simp only [consRead, List.length_cons]
    omega
  | case6 c d cs h₁ h₂ ih =>
    simp only [consRead, List.length_cons] at ih ⊢
    omega

/-- A raw part, unless it would be empty. -/
def rawPart (text : List Char) : List SqlPart :=
  if text.isEmpty then [] else [.raw (.ofList text)]

/-- What was read of a body. -/
structure SqlBody where
  parts : List SqlPart
  log : List LogEntry
  rest : List Char

/-- Parts and entries that precede a body. -/
def SqlBody.after (parts : List SqlPart) (log : List LogEntry) (b : SqlBody) : SqlBody :=
  ⟨parts ++ b.parts, log ++ b.log, b.rest⟩

/-- The body up to its closing bracket. A dollar sign without a name after it is dropped. -/
def sqlBody (cs : List Char) : SqlBody :=
  match _h : takeSqlText cs with
  | (text, []) => ⟨rawPart text, [.error "missing closing ']' after SQL[" []], []⟩
  | (text, c :: r) =>
    if c = '$' then
      match h₁ : takeName? r with
      | some (name, r) => .after (rawPart text ++ [.placeholder name]) [] (sqlBody r)
      | none =>
        .after (rawPart text) [.error "could not parse SQL qualifier variable" []] (sqlBody r)
    else ⟨rawPart text, [], r⟩
termination_by cs.length
decreasing_by
  · have h₂ := length_takeSqlText_le cs
    have h₃ := length_takeName? h₁
    rw [_h] at h₂
    simp only [List.length_cons] at h₂
    omega
  · have h₂ := length_takeSqlText_le cs
    rw [_h] at h₂
    simp only [List.length_cons] at h₂
    omega

/-- Raw SQL whose opening bracket was taken. -/
def rawSql (c : Cursor) : Step Qualifier :=
  let b := sqlBody c.rest
  .after b.log (.ok (.sql b.parts) (c.at b.rest))

end RecordQuery.Format
