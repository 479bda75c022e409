import RecordQuery.Number.Decimal
import RecordQuery.Text.Quoted
import RecordQuery.Text.Units

/-!
# Lexemes of the condition format

The pieces of a condition's text, each read from the front of the remaining characters: spaces,
names, words, keywords, operation tokens, quoted texts and numerals. Every reader gives what it
took and what is left, and takes nothing if it fails.

* `length_skipSpaces_le`, `length_takeName?`, …: what is left is no longer, and shorter if something
  was taken.
-/

namespace RecordQuery.Format

/-- The characters that are skipped between lexemes. -/
def isSpace (c : Char) : Bool :=
  c == ' ' || c == '\t' || c == '\n' || c == '\r'

/-- The characters that end a name: spaces, the characters of operation tokens, parentheses and the
closing bracket. -/
def isBreak (c : Char) : Bool :=
  isSpace c || ['<', '>', '=', '*', '/', '+', '-', '(', ')', ']', '!'].contains c

/-- What is left after the spaces in front. -/
def skipSpaces (cs : List Char) : List Char :=
  cs.dropWhile isSpace

/-- What is left after a token, if the text starts with it. -/
def strip? : List Char → List Char → Option (List Char)
  | [], cs => some cs
  | _ :: _, [] => none
  | t :: ts, c :: cs => if t = c then strip? ts cs else none

/-- The text starts with a token. -/
def startsWith (token : String) (cs : List Char) : Bool :=
  (strip? token.toList cs).isSome

/-- A keyword ends where the text does, or at a break or a comma. -/
def endsKeyword : List Char → Bool
  | [] => true
  | c :: _ => isBreak c || c == ','

/-- What is left after a keyword; a longer word is not taken for the keyword it starts with. -/
def stripKeyword? (keyword : String) (cs : List Char) : Option (List Char) :=
  (strip? keyword.toList cs).filter endsKeyword

/-- The text starts with a keyword. -/
def startsWithKeyword (keyword : String) (cs : List Char) : Bool :=
  (stripKeyword? keyword cs).isSome

/-- A name: characters up to the next break, the first of which is no digit. -/
def takeName? (cs : List Char) : Option (String × List Char) :=
  match cs with
  | [] => none
  | c :: _ =>
    if isDigit c || isBreak c then none
    else some (.ofList (cs.takeWhile (! isBreak ·)), cs.dropWhile (! isBreak ·))

/-- A word: characters up to the next space, the first of which is no digit. -/
def takeWord? (cs : List Char) : Option (String × List Char) :=
  match cs with
  | [] => none
  | c :: _ =>
    if isDigit c || isSpace c then none
    else some (.ofList (cs.takeWhile (! isSpace ·)), cs.dropWhile (! isSpace ·))

/-- An operation token: a symbol, in which the order of two characters does not count, or else a
word. At least two code units have to be left. -/
def takeOperation? (cs : List Char) : Option (String × List Char) :=
  if !Text.hasTwoUnits cs then none
  else match cs with
    | '=' :: '>' :: r => some ("=>", r)
    | '=' :: '<' :: r => some ("=<", r)
    | '=' :: r => some ("=", r)
    | '!' :: '=' :: r => some ("!=", r)
    | '<' :: '=' :: r => some ("=<", r)
    | '<' :: '>' :: r => some ("<>", r)
    | '<' :: r => some ("<", r)
    | '>' :: '=' :: r => some ("=>", r)
    | '>' :: '<' :: r => some ("<>", r)
    | '>' :: r => some (">", r)
    | cs => takeWord? cs

/-! ## Quoted texts -/

/-- Why a quoted text cannot be read. -/
inductive QuoteFault where
  | unfinishedEscape
  | unclosed
  deriving DecidableEq

/-- Puts a character before what was read. -/
def consRead (c : Char) (r : List Char × List Char) : List Char × List Char :=
  (c :: r.1, r.2)

/-- The characters up to the closing quote, and what is left after it. A backslash stands for the
character after it. -/
def quotedBody (q : Char) : List Char → Except QuoteFault (List Char × List Char)
  | [] => .error .unclosed
  | [c] =>
    if c = q then .ok ([], [])
    else if c = Text.backslash then .error .unfinishedEscape
    else .error .unclosed
  | c :: d :: cs =>
    if c = q then .ok ([], d :: cs)
    else if c = Text.backslash then (quotedBody q cs).map (consRead d)
    else (quotedBody q (d :: cs)).map (consRead c)

/-! ## Numerals -/

/-- The sign of an exponent: a sign right after its mark. -/
def isExponentSign (before c : Char) : Bool :=
  (c == '-' || c == '+') && (before == 'e' || before == 'E')

/-- The characters up to the end of a numeral, and what is left: it ends at a comma, or at a break
that is no sign of an exponent. -/
def numeralTail (before : Char) : List Char → List Char × List Char
  | [] => ([], [])
  | c :: cs =>
    if (isBreak c && !isExponentSign before c) || c == ',' then ([], c :: cs)
    else consRead c (numeralTail c cs)

/-- The text starts like a number: with a digit, or with a minus sign before one. -/
def startsNumeral : List Char → Bool
  | [] => false
  | [c] => isDigit c
  | c :: d :: _ => isDigit c || (c == '-' && isDigit d)

/-! ## What is left -/

theorem length_skipSpaces_le (cs : List Char) : (skipSpaces cs).length ≤ cs.length :=
  (List.dropWhile_sublist _).length_le

/-- A token is what was in front of what is left. -/
theorem strip?_eq_some {ts cs r : List Char} : strip? ts cs = some r ↔ cs = ts ++ r := by
  induction ts generalizing cs with
  | nil => simp [strip?, eq_comm]
  | cons t ts ih =>
    cases cs with
    | nil => simp [strip?]
    | cons c cs =>
      by_cases h : t = c
      · simp [strip?, h, ih]
      · have h₁ : c ≠ t := fun h' => h h'.symm
        simp [strip?, h, h₁]

theorem length_of_stripKeyword? {keyword : String} {cs r : List Char}
    (h : stripKeyword? keyword cs = some r) : cs.length = keyword.toList.length + r.length := by
  obtain ⟨h₁, -⟩ := Option.filter_eq_some_iff.1 h
  rw [strip?_eq_some.1 h₁, List.length_append]

/-- A name is what stands in front of what is left, and is not empty. -/
theorem takeName?_eq_some {cs r : List Char} {name : String} (h : takeName? cs = some (name, r)) :
    cs = name.toList ++ r ∧ name.toList ≠ [] := by
  cases cs with
  | nil => simp [takeName?] at h
  | cons c cs =>
    simp only [takeName?] at h
    split at h
    · contradiction
    · next hc =>
      simp only [Bool.or_eq_true, not_or, Bool.not_eq_true] at hc
      simp only [Option.some.injEq, Prod.mk.injEq] at h
      obtain ⟨rfl, rfl⟩ := h
      rw [String.toList_ofList]
      exact ⟨List.takeWhile_append_dropWhile.symm, by simp [hc.2]⟩

theorem length_takeName? {cs r : List Char} {name : String} (h : takeName? cs = some (name, r)) :
    r.length < cs.length := by
  obtain ⟨h₁, h₂⟩ := takeName?_eq_some h
  have h₃ := List.length_pos_iff.2 h₂
  rw [h₁, List.length_append]
  omega

end RecordQuery.Format
