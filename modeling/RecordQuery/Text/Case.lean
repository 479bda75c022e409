import RecordQuery.Text.CaseTable

/-!
# Lower case, case folding, and capitals

* `lower` is the full lower case of a text: one character to one, but for `U+0130`, which becomes
  two, and for the capital sigma, which has a form of its own at the end of a word;
* `foldCase` is the simple case folding of one character;
* `capitals` writes the capitals of the letters that become basic Latin ones, and leaves other
  characters as they are.
-/

namespace RecordQuery.Text

/-! ## Lower case -/

/-- The next character that is not passed over is cased. -/
def meetsCased : List Char → Bool
  | [] => false
  | c :: cs =>
    if inIntervals caseIgnorableIntervals c.toNat then meetsCased cs
    else inIntervals casedIntervals c.toNat

/-- The lower case of a capital sigma between the characters before it, nearest first, and those
after it. -/
def lowerSigma (before after : List Char) : Char :=
  if meetsCased before && !meetsCased after then 'ς' else 'σ'

/-- The lower case of the characters that follow `before`, which is held in reverse. -/
def lowerFrom (before : List Char) : List Char → List Char
  | [] => []
  | c :: cs =>
    let mapped :=
      if c = 'Σ' then [lowerSigma before cs]
      else if c = 'İ' then ['i', Char.ofNat 0x307]
      else [mapCase lowerRuns c]
    mapped ++ lowerFrom (c :: before) cs

/-- The lower case of a text. -/
def lower (s : String) : String :=
  .ofList (lowerFrom [] s.toList)

/-! ## Case folding -/

/-- The simple case folding of a character. -/
def foldCase (c : Char) : Char :=
  mapCase foldRuns c

/-! ## Capitals -/

/-- The capital of a character, if that is a basic Latin letter: besides the small letters, the long
s and the dotless i have one. -/
def capital (c : Char) : Char :=
  if c = 'ſ' then 'S' else if c = 'ı' then 'I' else c.toUpper

/-- The text with basic Latin capitals. It is one of given words of such letters exactly if its full
upper case is, because every other character has a capital outside basic Latin or one of several
letters that no such word holds in a row. -/
def capitals (s : String) : String :=
  .ofList (s.toList.map capital)

end RecordQuery.Text
