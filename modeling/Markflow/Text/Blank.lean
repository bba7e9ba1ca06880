/-!
# White space

The characters that separate words: the ASCII controls from tab to carriage return, the four
information separators, space, and the space, line and paragraph separators of Unicode.  The zero
width space and the byte order mark are not among them.
-/

namespace Markflow.Text

/-- Closed ranges of the code points of white space. -/
def blankRanges : List (Nat × Nat) :=
  [(0x9, 0xD), (0x1C, 0x20), (0x85, 0x85), (0xA0, 0xA0), (0x1680, 0x1680), (0x2000, 0x200A),
   (0x2028, 0x2029), (0x202F, 0x202F), (0x205F, 0x205F), (0x3000, 0x3000)]

/-- White space of Unicode. -/
def isBlank (c : Char) : Bool :=
  blankRanges.any fun (first, last) => first ≤ c.toNat && c.toNat ≤ last

/-- White space of ASCII: space, tab, line feed, vertical tab, form feed and carriage return. -/
def isAsciiBlank (c : Char) : Bool :=
  c.toNat == 0x20 || (0x9 ≤ c.toNat && c.toNat ≤ 0xD)

/-- A text without the white space at its start. -/
def stripLeft (text : List Char) : List Char :=
  text.dropWhile isBlank

/-- A text without the white space at its end. -/
def stripRight (text : List Char) : List Char :=
  (text.reverse.dropWhile isBlank).reverse

/-- A text without the white space at its two ends. -/
def strip (text : List Char) : List Char :=
  stripRight (stripLeft text)

/-- Whether a text has a character that is not white space. -/
def hasInk (text : List Char) : Bool :=
  text.any (!isBlank ·)

end Markflow.Text
