import DotGrid.Frame.Basic

/-!
# Drawing a frame as text

A row is a line and a value is one character. The size of the value, up to one, picks one of five steps, the least
number of quarters that is not below it; the sign picks the palette.
-/

namespace DotGrid

/-- The characters of values from zero to one. -/
def positiveGlyphs : List Char := [' ', '.', 'o', 'O', '@']

/-- The characters of values from zero to minus one. -/
def negativeGlyphs : List Char := [' ', ',', 'x', 'X', '%']

namespace Double

/-- The least number of quarters that is not below the size of a number, at most four; zero for NaN. -/
def quarters : Double → Nat
  | .nan => 0
  | .infinite _ => 4
  | .finite _ m => (4 * min m.units one + (one - 1)) / one

/-- Tells the numbers that are below zero. -/
def isBelowZero : Double → Bool
  | .nan => false
  | .infinite s => s
  | .finite s m => s && m.units != 0

/-- The character of a value. -/
def glyph (d : Double) : Char :=
  (if d.isBelowZero then negativeGlyphs else positiveGlyphs).getD d.quarters ' '

end Double

/-- The line of a row of values. -/
def drawnRow (row : List Double) : String := String.ofList (row.map Double.glyph)

/-- The text of rows of values. -/
def drawing (rows : List (List Double)) : String := String.intercalate "\n" (rows.map drawnRow)

/-- The text of a frame. -/
def Frame.text (f : Frame) : String := drawing f.values

end DotGrid
