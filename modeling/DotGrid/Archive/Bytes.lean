/-!
# Bytes

Numbers as bytes, the lowest byte first, and the checksum of archives: the remainder of a division of polynomials over
two elements, taken byte by byte.
-/

namespace DotGrid.Archive

/-- The lowest bytes of a number, as many as asked for and the lowest one first. -/
def littleEndian : (count : Nat) → Nat → List UInt8
  | 0, _ => []
  | k + 1, n => n.toUInt8 :: littleEndian k (n / 256)

/-- The bytes of a text. -/
def textBytes (s : String) : List UInt8 := s.toUTF8.data.toList

/-- The checksum after one more bit of the input. -/
def checksumBit (sum : UInt32) : UInt32 :=
  if sum &&& 1 = 1 then (sum >>> 1) ^^^ 0xedb88320 else sum >>> 1

/-- The checksum after one more byte of the input. -/
def checksumByte (sum : UInt32) (byte : UInt8) : UInt32 :=
  (List.range 8).foldl (fun sum _ => checksumBit sum) (sum ^^^ byte.toUInt32)

/-- The checksum of some bytes. -/
def checksum (bytes : List UInt8) : UInt32 := bytes.foldl checksumByte 0xffffffff ^^^ 0xffffffff

end DotGrid.Archive
