import DotGrid.Decimal.Shortest

/-!
# Fixed-point text

`Double.fixed` writes a double with a fixed number of decimal places. The exact value is rounded once to that place,
to the even digit when it lies half-way, and a negative number keeps its sign even if it is rounded to zero.
-/

namespace DotGrid

-- powers are those of the core library, whatever else is in scope
attribute [local instance (20000)] instPowNat

/-- The text of a double with `places` digits after the point. -/
def Double.fixed (places : Nat) : Double → String
  | .nan => "nan"
  | .infinite s => if s then "-inf" else "inf"
  | .finite s m =>
    let digits := NumberLayout.padded (places + 1) (Nat.toDigits 10 (nearest (m.units * 10 ^ places) one))
    let whole := digits.length - places
    let body := digits.take whole ++ if places = 0 then [] else '.' :: digits.drop whole
    String.ofList (if s then '-' :: body else body)

end DotGrid
