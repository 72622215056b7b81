import DotGrid.Text.Printable
import DotGrid.Text.Surrogate

/-!
# Quoted text

`quoted s` shows a text between single quotes, or between double quotes if it holds a single quote and no double one.
The quote in use, the backslash, the line breaks and the tab are escaped by a backslash, and an unprintable character
is shown by the hexadecimal digits of its code point: two, four or eight of them. `quotedBytes` shows bytes in the same
way behind a `b`, those of the basic alphabet as characters.
-/

namespace DotGrid.Text

/-- A number in hexadecimal digits, at least `width` of them. -/
def hexadecimal (width n : Nat) : List Char :=
  let digits := Nat.toDigits 16 n
  List.replicate (width - digits.length) '0' ++ digits

/-- A character inside of quotes. -/
def escaped (quote c : Char) : List Char :=
  if c = quote ∨ c = '\\' then ['\\', c]
  else if c = '\n' then ['\\', 'n']
  else if c = '\r' then ['\\', 'r']
  else if c = '\t' then ['\\', 't']
  else if isPrintable c then [c]
  else
    let n := (half? c).getD c.toNat
    if n < 0x100 then '\\' :: 'x' :: hexadecimal 2 n
    else if n < 0x10000 then '\\' :: 'u' :: hexadecimal 4 n
    else '\\' :: 'U' :: hexadecimal 8 n

/-- The quote that a text is shown in. -/
def quoteFor (cs : List Char) : Char :=
  if cs.contains '\'' && !cs.contains '"' then '"' else '\''

/-- A text in quotes. -/
def quoted (s : String) : String :=
  let quote := quoteFor s.toList
  String.ofList (quote :: (s.toList.flatMap (escaped quote) ++ [quote]))

/-- A byte inside of quotes. -/
def escapedByte (quote : Char) (b : UInt8) : List Char :=
  if b < 0x7f then escaped quote (Char.ofNat b.toNat) else '\\' :: 'x' :: hexadecimal 2 b.toNat

/-- Bytes in quotes. -/
def quotedBytes (bs : List UInt8) : String :=
  let quote := quoteFor (bs.map fun b => Char.ofNat b.toNat)
  String.ofList ('b' :: quote :: (bs.flatMap (escapedByte quote) ++ [quote]))

end DotGrid.Text
