import DotGrid.Document.Datum
import DotGrid.Value.Conversion

/-!
# Data as numbers

The integer and the double that a datum converts to, or the reason why there is none. Texts and bytes are read as
numbers that a user wrote; a double becomes an integer without its fraction.
-/

namespace DotGrid

/-- The first characters of a text. -/
def firstChars (n : Nat) (s : String) : String := String.ofList (s.toList.take n)

/-- Bytes as a text, in which all that is beyond the basic alphabet is one character that no number has. -/
def basicText (bs : List UInt8) : String :=
  String.ofList (bs.map fun b => if b < 0x80 then Char.ofNat b.toNat else '\ufffd')

/-- Why something that is shown in quotes is no integer. -/
def IntegerFault.reason (shown : String) : IntegerFault → String
  | .malformed => "invalid literal for int() with base 10: " ++ firstChars 200 shown
  | .tooLong digits =>
    "Exceeds the limit (" ++ Nat.repr longestInteger ++ " digits) for integer string conversion: value has " ++
      Nat.repr digits ++ " digits; use sys.set_int_max_str_digits() to increase the limit"

namespace Datum

/-- The integer that a datum converts to, or the reason why there is none. -/
def toInteger : Datum → Except String Int
  | .boolean b => .ok (if b then 1 else 0)
  | .integer n => .ok n
  | .real .nan => .error "cannot convert float NaN to integer"
  | .real (.infinite _) => .error "cannot convert float infinity to integer"
  | .real d => .ok (d.truncate?.getD 0)
  | .text s => (readInteger s).mapError (IntegerFault.reason (Text.quoted s))
  | .bytes bs => (readInteger (basicText bs)).mapError (IntegerFault.reason (Text.quotedBytes (bs.take 200)))
  | d =>
    .error ("int() argument must be a string, a bytes-like object or a real number, not '" ++ d.qualifiedType ++ "'")

/-- The double that a text denotes, or the reason why there is none; `shown` is the text in quotes. -/
def realOfText (shown text : String) : Except String Double :=
  match Double.parse? text with
  | some d => .ok d
  | none => .error ("could not convert string to float: " ++ shown)

/-- The double that a datum converts to, or the reason why there is none. -/
def toReal : Datum → Except String Double
  | .text s => realOfText (Text.quoted s) s
  | .bytes bs => realOfText (Text.quotedBytes bs) (basicText bs)
  | d =>
    match d.number? with
    | some n => n.toDouble.mapError fun e => e.message?.getD ""
    | none => .error ("float() argument must be a string or a real number, not '" ++ d.qualifiedType ++ "'")

end Datum

end DotGrid
