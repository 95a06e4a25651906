import HfsPlus.Catalog.Id
import HfsPlus.Format.Basic

/-!
# Thread records

A thread record leads from the number of a file or folder back to its parent and name. It stands
under the number itself with an empty name, so it is the first record of a folder.
-/

namespace HfsPlus

/-- The catalog record that names the parent of a file or folder. -/
structure ThreadRecord where
  /-- The code of the record's type. -/
  recordType : UInt16
  /-- Zero. -/
  reserved : Int16
  /-- The number of the parent. -/
  parentId : CatalogId
  /-- The units of the name. -/
  name : List UInt16
  /-- The length of the name fits the 16 bits in front of it. -/
  length_name_lt : name.length < 65536
deriving DecidableEq, Repr

open Format in
/-- Three fixed fields, then the name behind its length. -/
def ThreadRecord.format : Format ThreadRecord :=
  (uint16.seq <| int16.seq <| uint32.seq (counted uint16)).iso
    (fun (recordType, reserved, parentId, name) =>
      { recordType, reserved, parentId, name := name.val, length_name_lt := name.property })
    (fun t => (t.recordType, t.reserved, t.parentId, ⟨t.name, t.length_name_lt⟩))

end HfsPlus
