/-!
# Halves of surrogate pairs

An escape can name a code point that is half of a surrogate pair and no character. A text has characters only, so such
a half is kept as the code point of plane thirteen that has the same last sixteen bits. This plane is neither assigned
nor for private use: the characters whose place is taken are none that a text is written in.
-/

namespace DotGrid.Text

/-- The first code point of the plane in which halves are kept. -/
def halfPlane : Nat := 0xd0000

/-- What a code point is kept as. -/
def ofCodePoint? (n : Nat) : Option Char :=
  if n.isValidChar then some (Char.ofNat n)
  else if 0xd800 ≤ n ∧ n ≤ 0xdfff then some (Char.ofNat (halfPlane + n))
  else none

/-- The half of a surrogate pair that is kept in a text. -/
def half? (c : Char) : Option Nat :=
  if halfPlane + 0xd800 ≤ c.toNat ∧ c.toNat ≤ halfPlane + 0xdfff then some (c.toNat - halfPlane) else none

end DotGrid.Text
