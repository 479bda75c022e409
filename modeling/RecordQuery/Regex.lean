import RecordQuery.Text.Blank
import RecordQuery.Text.Case
import RecordQuery.Text.Quoted

/-!
# Regular expressions

The regular expressions that patterns are compiled to: rows of anchors, and of characters and
classes that a star lets be repeated. Source and text are taken by whole code points.

* `Regex.compile?` reads a source. A character that has a meaning of its own stands for itself only
  behind a backslash. Sources with groups, alternatives, other quantifiers, other escapes or other
  classes are not read;
* `Regex.test` looks for a match anywhere in a text. It goes through the terms from the last one on
  and keeps, for every rest of the text, whether the terms so far match a beginning of it.
-/

namespace RecordQuery

namespace Regex

/-- A class of characters that has a name. -/
inductive CharClass where
  | blank
  | nonBlank
  deriving DecidableEq

/-- What stands for one character. -/
inductive Atom where
  | char (c : Char)
  /-- A character of any of the classes. -/
  | oneOf (classes : List CharClass)
  deriving DecidableEq

/-- A term of an expression: a place in the text, or characters of one kind. -/
inductive Term where
  /-- The start of the text. -/
  | start
  /-- The end of the text. -/
  | stop
  | once (a : Atom)
  /-- Any number of such characters, also none. -/
  | repeated (a : Atom)
  deriving DecidableEq

end Regex

/-- A regular expression: terms in a row, and whether case counts for the characters in them. -/
structure Regex where
  terms : List Regex.Term
  ignoreCase : Bool

namespace Regex

/-! ## The source -/

/-- The characters that have a meaning of their own. -/
def syntaxChars : List Char :=
  [Text.backslash, '^', '$', '.', '*', '+', '?', '(', ')', '[', ']', '\x7b', '\x7d', '|']

/-- The class that a letter names behind a backslash. -/
def CharClass.ofLetter? (c : Char) : Option CharClass :=
  if c = 's' then some blank else if c = 'S' then some nonBlank else none

/-- The classes that stand between brackets. -/
def readClasses? : List Char → Option (List CharClass)
  | [] => some []
  | [_] => none
  | c :: d :: cs =>
    if c = Text.backslash then
      match CharClass.ofLetter? d with
      | some k => (readClasses? cs).map (k :: ·)
      | none => none
    else none

/-- What follows an opening bracket, up to the closing one. -/
def takeClasses? (cs : List Char) : Option (Atom × List Char) :=
  match cs.dropWhile (· ≠ ']') with
  | [] => none
  | _ :: rest => (readClasses? (cs.takeWhile (· ≠ ']'))).map fun ks => (.oneOf ks, rest)

/-- The character after a backslash. -/
def takeEscaped? : List Char → Option (Atom × List Char)
  | [] => none
  | c :: cs => if c ∈ syntaxChars ∨ c = '/' then some (.char c, cs) else none

/-- A character, escaped if need be, or classes in brackets. -/
def takeAtom? : List Char → Option (Atom × List Char)
  | [] => none
  | c :: cs =>
    if c = '[' then takeClasses? cs
    else if c = Text.backslash then takeEscaped? cs
    else if c ∈ syntaxChars then none
    else some (.char c, cs)

/-- An atom with the star that may follow it. -/
def takeStar (a : Atom) : List Char → Term × List Char
  | [] => (.once a, [])
  | c :: cs => if c = '*' then (.repeated a, cs) else (.once a, c :: cs)

/-- The first term of a source, and what follows it. -/
def takeTerm? : List Char → Option (Term × List Char)
  | [] => none
  | c :: cs =>
    if c = '^' then some (.start, cs)
    else if c = '$' then some (.stop, cs)
    else (takeAtom? (c :: cs)).map fun r => takeStar r.1 r.2

/-! Every term takes something of the source. -/

theorem length_of_takeClasses? {cs : List Char} {r : Atom × List Char}
    (h : takeClasses? cs = some r) : r.2.length < cs.length := by
  have h₁ := (List.dropWhile_sublist (l := cs) (· ≠ ']')).length_le
  rw [takeClasses?] at h
  split at h
  · contradiction
  · next heq =>
    obtain ⟨ks, -, rfl⟩ := Option.map_eq_some_iff.1 h
    rw [heq] at h₁
    exact h₁

theorem length_of_takeEscaped? {cs : List Char} {r : Atom × List Char}
    (h : takeEscaped? cs = some r) : r.2.length < cs.length := by
  cases cs with
  | nil => contradiction
  | cons c cs =>
    rw [takeEscaped?] at h
    split at h
    · cases h
      exact Nat.lt_succ_self _
    · contradiction

theorem length_of_takeAtom? {cs : List Char} {r : Atom × List Char} (h : takeAtom? cs = some r) :
    r.2.length < cs.length := by
  cases cs with
  | nil => contradiction
  | cons c cs =>
    rw [takeAtom?] at h
    split at h
    · exact Nat.lt_succ_of_lt (length_of_takeClasses? h)
    · split at h
      · exact Nat.lt_succ_of_lt (length_of_takeEscaped? h)
      · split at h
        · contradiction
        · cases h
          exact Nat.lt_succ_self _

theorem length_takeStar_le (a : Atom) (cs : List Char) : (takeStar a cs).2.length ≤ cs.length := by
  cases cs with
  | nil => exact Nat.le_refl _
  | cons c cs =>
    rw [takeStar]
    split
    · exact Nat.le_succ _
    · exact Nat.le_refl _

theorem length_of_takeTerm? {cs : List Char} {r : Term × List Char} (h : takeTerm? cs = some r) :
    r.2.length < cs.length := by
  cases cs with
  | nil => contradiction
  | cons c cs =>
    rw [takeTerm?] at h
    split at h
    · cases h
      exact Nat.lt_succ_self _
    · split at h
      · cases h
        exact Nat.lt_succ_self _
      · obtain ⟨r', h', rfl⟩ := Option.map_eq_some_iff.1 h
        exact Nat.lt_of_le_of_lt (length_takeStar_le r'.1 r'.2) (length_of_takeAtom? h')

/-- The terms of a source. -/
def parse? (cs : List Char) : Option (List Term) :=
  match _ : takeTerm? cs with
  | some (t, rest) => (parse? rest).map (t :: ·)
  | none => if cs.isEmpty then some [] else none
termination_by cs.length
decreasing_by exact length_of_takeTerm? ‹_›

/-- The regular expression of a source, if it is well formed. -/
def compile? (source : String) (ignoreCase : Bool) : Option Regex :=
  (parse? source.toList).map (⟨·, ignoreCase⟩)

/-! ## Matching -/

namespace CharClass

/-- The characters of a class. -/
def holds : CharClass → Char → Bool
  | blank, c => Text.isBlank c
  | nonBlank, c => !Text.isBlank c

end CharClass

/-- An atom stands for a character. Characters are compared by their case foldings if case does not
count; no blank has another case. -/
def Atom.takes (ignoreCase : Bool) : Atom → Char → Bool
  | char c, d => if ignoreCase then Text.foldCase c == Text.foldCase d else c == d
  | oneOf classes, d => classes.any (·.holds d)

/-- Only the whole text is left. -/
def atStart : List Bool → List Bool
  | [] => []
  | b :: bs => b :: bs.map fun _ => false

/-- Only the empty rest is left. -/
def atStop : List Char → List Bool → List Bool
  | _ :: cs, _ :: bs => false :: atStop cs bs
  | _, bs => bs

/-- The rests that begin with a character that is taken, before one of the given ones. -/
def afterOne (takes : Char → Bool) : List Char → List Bool → List Bool
  | c :: cs, _ :: bs => (takes c && bs.head?.getD false) :: afterOne takes cs bs
  | _, _ => [false]

/-- The rests that begin with a run of characters that are taken, before one of the given ones. -/
def afterRun (takes : Char → Bool) : List Char → List Bool → List Bool
  | c :: cs, b :: bs =>
    let later := afterRun takes cs bs
    (b || takes c && later.head?.getD false) :: later
  | _, bs => bs

/-- Whether the terms match a beginning of a rest of the text, for every rest, from the whole text
down to the empty one. -/
def matchRests (ignoreCase : Bool) (text : List Char) : List Term → List Bool
  | [] => true :: text.map fun _ => true
  | .start :: ts => atStart (matchRests ignoreCase text ts)
  | .stop :: ts => atStop text (matchRests ignoreCase text ts)
  | .once a :: ts => afterOne (a.takes ignoreCase) text (matchRests ignoreCase text ts)
  | .repeated a :: ts => afterRun (a.takes ignoreCase) text (matchRests ignoreCase text ts)

/-- The expression matches some part of the text. -/
def test (r : Regex) (text : String) : Bool :=
  (matchRests r.ignoreCase text.toList r.terms).any id

end Regex

end RecordQuery
