import DotGrid.Archive.Zip
import DotGrid.Double.Basic

/-!
# Arrays of doubles in an archive

The member of an array starts with a mark, the version of the format and a line that tells the shape, filled up to a
multiple of 64 bytes; the doubles follow with eight bytes each, those of the last index side by side.
-/

namespace DotGrid

-- powers are those of the core library, whatever else is in scope
attribute [local instance (20000)] instPowNat

/-- The place of a magnitude among all magnitudes in order. The numbers between two powers of two have the same
spacing, so each such range has as many magnitudes as any other. -/
def Magnitude.rank (m : Magnitude) : Nat :=
  let scale := m.units.log2 - 52
  scale * 2 ^ (52 : Nat) + m.units / 2 ^ scale

/-- The 64 bits of a double: the sign, and then the rank of the magnitude or one of the numbers above all ranks. -/
def Double.bits : Double → Nat
  | .nan => 0x7ff8 * 2 ^ (48 : Nat)
  | .infinite s => s.toNat * 2 ^ (63 : Nat) + 0x7ff * 2 ^ (52 : Nat)
  | .finite s m => s.toNat * 2 ^ (63 : Nat) + m.rank

namespace Archive

/-- The shape of an array in brackets. -/
def shownShape : List Nat → String
  | [n] => "(" ++ Nat.repr n ++ ",)"
  | ns => "(" ++ String.intercalate ", " (ns.map Nat.repr) ++ ")"

/-- The bytes before the numbers of an array. -/
def gridHeader (shape : List Nat) : List UInt8 :=
  let line := textBytes ("\x7b'descr': '<f8', 'fortran_order': False, 'shape': " ++ shownShape shape ++ ", \x7d")
  let filled := line ++ List.replicate (63 - (line.length + 10) % 64) 0x20 ++ [0x0a]
  0x93 :: (textBytes "NUMPY" ++ [1, 0] ++ littleEndian 2 filled.length ++ filled)

/-- An array of doubles as a member of an archive. -/
def gridMember (name : String) (shape : List Nat) (values : List Double) : Member :=
  ⟨name ++ ".npy", gridHeader shape ++ values.flatMap fun d => littleEndian 8 d.bits⟩

end Archive

end DotGrid
