/-!
# Blank characters

The characters that trimming removes from the ends of a text: the ASCII controls from tab to
carriage return, the line and paragraph separators, the byte order mark, and the Unicode space
separators. `U+0085`, `U+180E` and `U+200B` are not among them.
-/

namespace RecordQuery.Text

/-- The blank characters outside ASCII and the run from `U+2000` to `U+200A`. -/
def otherBlanks : List Nat :=
  [0xA0, 0x1680, 0x2028, 0x2029, 0x202F, 0x205F, 0x3000, 0xFEFF]

/-- A character that trimming removes. -/
def isBlank (c : Char) : Bool :=
  let n := c.toNat
  (9 ≤ n && n ≤ 13) || n == 32 || (0x2000 ≤ n && n ≤ 0x200A) || otherBlanks.contains n

/-- The text without the blanks at its ends. -/
def trim (cs : List Char) : List Char :=
  ((cs.dropWhile isBlank).reverse.dropWhile isBlank).reverse

end RecordQuery.Text
