import HfsPlus.Catalog.FinderInfo
import HfsPlus.Catalog.Id
import HfsPlus.Catalog.Permissions
import HfsPlus.Fork.Basic
import HfsPlus.Timestamp

/-!
# File records

What the catalog stores about a file: 248 bytes behind the file's key, its two forks at the end.
-/

namespace HfsPlus

/-- The catalog record of a file. -/
structure FileRecord where
  /-- The code of the record's type. -/
  recordType : UInt16
  /-- Flags of the record. -/
  flags : UInt16
  /-- Not used. -/
  reserved1 : UInt32
  /-- The file's number. -/
  fileId : CatalogId
  /-- When the file was created. -/
  createDate : Timestamp
  /-- When the contents were last changed. -/
  contentModDate : Timestamp
  /-- When the record was last changed. -/
  attributeModDate : Timestamp
  /-- When the file was last read. -/
  accessDate : Timestamp
  /-- When the file was last backed up. -/
  backupDate : Timestamp
  /-- Who may use the file. -/
  permissions : Permissions
  /-- How the file is shown. -/
  userInfo : FileInfo
  /-- More about how the file is shown. -/
  finderInfo : ExtendedFileInfo
  /-- The encoding from which the name was converted. -/
  textEncoding : UInt32
  /-- Not used. -/
  reserved2 : UInt32
  /-- The contents. -/
  dataFork : ForkData
  /-- The resources. -/
  resourceFork : ForkData
deriving DecidableEq, Repr

open Format in
/-- The fields in their order in the record. -/
def FileRecord.format : Format FileRecord :=
  (uint16.seq <| uint16.seq <| uint32.seq <| uint32.seq <|
    uint32.seq <| uint32.seq <| uint32.seq <| uint32.seq <| uint32.seq <|
    Permissions.format.seq <| FileInfo.format.seq <| ExtendedFileInfo.format.seq <|
    uint32.seq <| uint32.seq <| ForkData.format.seq ForkData.format).iso
    (fun (recordType, flags, reserved1, fileId, createDate, contentModDate, attributeModDate,
        accessDate, backupDate, permissions, userInfo, finderInfo, textEncoding, reserved2,
        dataFork, resourceFork) =>
      { recordType, flags, reserved1, fileId, createDate, contentModDate, attributeModDate,
        accessDate, backupDate, permissions, userInfo, finderInfo, textEncoding, reserved2,
        dataFork, resourceFork })
    (fun r => (r.recordType, r.flags, r.reserved1, r.fileId, r.createDate, r.contentModDate,
      r.attributeModDate, r.accessDate, r.backupDate, r.permissions, r.userInfo, r.finderInfo,
      r.textEncoding, r.reserved2, r.dataFork, r.resourceFork))

end HfsPlus
