/-!
# Blank characters

The characters that separate words: the controls from tab to carriage return, the four information separators, the
spaces of the character database and the line and paragraph separators.
-/

namespace DotGrid.Text

/-- The ranges of blank code points, each with its first and its last member. -/
def blanks : List (Nat × Nat) :=
  [(0x9, 0xd), (0x1c, 0x20), (0x85, 0x85), (0xa0, 0xa0), (0x1680, 0x1680), (0x2000, 0x200a), (0x2028, 0x2029),
    (0x202f, 0x202f), (0x205f, 0x205f), (0x3000, 0x3000)]

/-- Tells a blank character. -/
def isBlank (c : Char) : Bool :=
  blanks.any fun r => r.1 ≤ c.toNat && c.toNat ≤ r.2

/-- Tells an information separator. -/
def isInformationSeparator (c : Char) : Bool := 0x1c ≤ c.toNat && c.toNat ≤ 0x1f

/-- Tells a blank that may stand around a number: any but an information separator. -/
def isPadding (c : Char) : Bool := isBlank c && !isInformationSeparator c

/-- A text without the padding at its two ends. -/
def trim (cs : List Char) : List Char :=
  ((cs.dropWhile isPadding).reverse.dropWhile isPadding).reverse

end DotGrid.Text
