import DotGrid.Archive.Bytes

/-!
# Zip archives

An archive holds its members one after the other as they are, each behind a header, then a directory with the offsets
of the headers, and at last the place of the directory. Times are those of the earliest date that the format has.
-/

namespace DotGrid.Archive

/-- A member of an archive. -/
structure Member where
  name : String
  content : List UInt8
deriving DecidableEq

namespace Member

/-- What a member's header and its entry of the directory have in common. -/
def description (m : Member) : List UInt8 :=
  littleEndian 2 20 ++ littleEndian 2 0 ++ littleEndian 2 0 ++ littleEndian 2 0 ++ littleEndian 2 0x21 ++
    littleEndian 4 (checksum m.content).toNat ++ littleEndian 4 m.content.length ++
    littleEndian 4 m.content.length ++ littleEndian 2 (textBytes m.name).length ++ littleEndian 2 0

/-- A member behind its header. -/
def record (m : Member) : List UInt8 :=
  littleEndian 4 0x04034b50 ++ m.description ++ textBytes m.name ++ m.content

/-- The entry of a member in the directory, by the offset of its header. -/
def entry (m : Member) (offset : Nat) : List UInt8 :=
  littleEndian 4 0x02014b50 ++ littleEndian 2 20 ++ m.description ++ littleEndian 2 0 ++ littleEndian 2 0 ++
    littleEndian 2 0 ++ littleEndian 4 0 ++ littleEndian 4 offset ++ textBytes m.name

end Member

/-- The directory of some members, of which the first one stands at an offset. -/
def directory (offset : Nat) : List Member → List UInt8
  | [] => []
  | m :: ms => m.entry offset ++ directory (offset + m.record.length) ms

/-- The archive of some members. -/
def zip (members : List Member) : List UInt8 :=
  let records := members.flatMap Member.record
  let entries := directory 0 members
  records ++ entries ++ littleEndian 4 0x06054b50 ++ littleEndian 2 0 ++ littleEndian 2 0 ++
    littleEndian 2 members.length ++ littleEndian 2 members.length ++ littleEndian 4 entries.length ++
    littleEndian 4 records.length ++ littleEndian 2 0

end DotGrid.Archive
