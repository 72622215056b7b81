/-!
# Base64

Bytes as text, six bits for each character of an alphabet of sixty-four. `Base64.decode?` reads such a text: it skips
characters that are not of the alphabet and ends at the padding that completes a group of four characters. A text
that ends inside of a group is refused.
-/

namespace DotGrid.Base64

/-- The six bits of a character. -/
def sextet? (c : Char) : Option Nat :=
  if 'A' ≤ c && c ≤ 'Z' then some (c.toNat - 'A'.toNat)
  else if 'a' ≤ c && c ≤ 'z' then some (c.toNat - 'a'.toNat + 26)
  else if '0' ≤ c && c ≤ '9' then some (c.toNat - '0'.toNat + 52)
  else if c = '+' then some 62
  else if c = '/' then some 63
  else none

/-- A group of up to four characters that is read: how many there are, the bits of the last one that are not in a
byte yet, and the padding since then. -/
structure Group where
  length : Nat := 0
  bits : Nat := 0
  padding : Nat := 0

/-- The group after six more bits, and the byte that they complete. -/
def Group.add (g : Group) (v : Nat) : Group × Option UInt8 :=
  match g.length with
  | 0 => (⟨1, v, 0⟩, none)
  | 1 => (⟨2, v % 16, 0⟩, some (.ofNat (g.bits * 4 + v / 16)))
  | 2 => (⟨3, v % 4, 0⟩, some (.ofNat (g.bits * 16 + v / 4)))
  | _ => ({}, some (.ofNat (g.bits * 64 + v)))

/-- The group after one more character of padding, of which a group with less than two characters takes no note. -/
def Group.pad (g : Group) : Group := if g.length < 2 then g else { g with padding := g.padding + 1 }

/-- Tells a group that padding has completed. -/
def Group.isPadded (g : Group) : Bool := 2 ≤ g.length && 4 ≤ g.length + g.padding

/-- The bytes of the rest of a text, inside of a group. -/
def decodeFrom? (g : Group) : List Char → Option (List UInt8)
  | [] => if g.length = 0 then some [] else none
  | c :: cs =>
    if c = '=' then if g.pad.isPadded then some [] else decodeFrom? g.pad cs
    else match sextet? c with
      | some v =>
        let (g, byte) := g.add v
        (decodeFrom? g cs).map (byte.toList ++ ·)
      | none => decodeFrom? g cs

/-- The bytes of a text. -/
def decode? (s : String) : Option (List UInt8) := decodeFrom? {} s.toList

end DotGrid.Base64
