import RecordQuery.Failure
import RecordQuery.Format.Clause
import RecordQuery.Format.RawSql
import RecordQuery.Qualifier.Combine

/-!
# Reading conditions

`Qualifier.parse?` reads a condition such as
`lastname LIKE 'D*' AND (age > %d OR isVIP) AND firstname = $firstname`.

AND and OR bind equally. A run of one connective becomes one compound, and when the connective
changes, all that was read so far becomes the first part of the next one: `a AND b OR c` is
`(a AND b) OR c`.

The parser is bounded by a count of steps that is computed from the length of the text.
-/

namespace RecordQuery.Format

/-- The compound that a connective makes of qualifiers; one qualifier stands for itself. A word that
is no connective is reported as soon as it would join something. -/
def buildCompound (word : String) : List Qualifier → Logged (Option Qualifier)
  | [] => .quiet none
  | [q] => .quiet (some q)
  | qs =>
    if word = "AND" then .quiet (some (.compound .and qs))
    else if word = "OR" then .quiet (some (.compound .or qs))
    else .noting (.error ("unknown compound operator: " ++ word) []) none

/-- The compound at the end of a row of qualifiers that the last connective joins. -/
def endCompound (last : Option String) (qs : List Qualifier) (c : Cursor) : Step Qualifier :=
  let q := buildCompound (last.getD "AND") qs
  ⟨q.log, q.value.map fun q => (q, c), false⟩

/-- The row of qualifiers that a connective goes on with: the same one if the connective stays, else
what was read so far as a single part. -/
def foldRow (last : Option String) (word : String) (qs : List Qualifier) :
    Logged (List Qualifier) :=
  match last with
  | some w => if w = word then .quiet qs else (buildCompound w qs).map Option.toList
  | none => .quiet qs

/-- The end of a qualifier in parentheses. A missing parenthesis is reported only. -/
def closeParenthesis (q : Qualifier) (c : Cursor) : Step Qualifier :=
  let c := c.at (skipSpaces c.rest)
  match strip? [')'] c.rest with
  | some r => .ok q (c.at r)
  | none => .after [.error "missing closing parenthesis" []] (.ok q c)

mutual

/-- A single qualifier: one in parentheses, a negated one, raw SQL, a truth value, or a clause. -/
def oneQualifier (size : Nat) : Nat → Cursor → Step Qualifier
  | 0, _ => .stop
  | n + 1, c =>
    let c := c.at (skipSpaces c.rest)
    if c.rest.isEmpty then .stop
    else match strip? ['('] c.rest with
    | some r =>
      let c := c.at (skipSpaces r)
      if c.rest.isEmpty then .fail "missing closing parenthesis"
      else (row size n none [] c).bind closeParenthesis
    | none =>
    match stripKeyword? "NOT" c.rest with
    | some r =>
      let c := c.at (skipSpaces r)
      if c.rest.isEmpty then .fail "missing qualifier after NOT"
      else (oneQualifier size n c).map Qualifier.negate
    | none =>
    match strip? "SQL[".toList c.rest with
    | some r => rawSql (c.at r)
    | none =>
    match strip? "*true*".toList c.rest with
    | some r => .ok (.always true) (c.at r)
    | none =>
    match strip? "*false*".toList c.rest with
    | some r => .ok (.always false) (c.at r)
    | none => clause size c

/-- Qualifiers with connectives between them, after `qs` that the connective `last` joins. -/
def row (size : Nat) : Nat → Option String → List Qualifier → Cursor → Step Qualifier
  | 0, _, _, _ => .stop
  | n + 1, last, qs, c =>
    (oneQualifier size n c).bind fun q c =>
      let qs := qs ++ [q]
      let c := c.at (skipSpaces c.rest)
      if c.rest.isEmpty || startsWith ")" c.rest then endCompound last qs c
      else match takeName? c.rest with
      | none =>
        .after [.error (c.message size "could not parse compound operator") []]
          (endCompound last qs c)
      | some (word, r) =>
        (resolve word (c.at r)).bind fun word c =>
          let c := c.at (skipSpaces c.rest)
          if c.rest.isEmpty then
            .after [.error ("expected another qualifier after compound operator (op='" ++ word
              ++ "')") []] (endCompound last qs c)
          else
            let folded := foldRow last word qs
            .after folded.log (row size n (some word) folded.value c)

end

/-- The steps that suffice for a text: each qualifier takes a character, and two steps. -/
def stepBound (cs : List Char) : Nat :=
  2 * cs.length + 2

/-- Reads a condition from the front of a text, with arguments for its patterns. A blank text is no
condition. -/
def read (text : List Char) (args : List Value) : Step Qualifier :=
  let rest := skipSpaces text
  if rest.isEmpty then .stop
  else row (Text.unitCount text) (stepBound text) none [] ⟨rest, args⟩

end RecordQuery.Format

namespace RecordQuery

/-- Reads a condition, with arguments for the patterns in it. What cannot be read is logged, and
there may be no qualifier. The arguments are to have the texts that they are asked for. -/
def Qualifier.parse (format : String) (args : List Value) : Logged (Option Qualifier) :=
  let s := Format.read format.toList args
  ⟨s.result.map (·.1), s.log⟩

/-- Reads a condition, with any arguments. To ask one for a text that it does not have is a
failure. -/
def Qualifier.parse? (format : String) (args : List Value) :
    Except Failure (Logged (Option Qualifier)) :=
  if (Format.read format.toList args).textless then .error .symbolInText
  else .ok (parse format args)

end RecordQuery
