import HfsPlus.Catalog.FinderInfo
import HfsPlus.Catalog.Id
import HfsPlus.Catalog.Permissions
import HfsPlus.Timestamp

/-!
# Folder records

What the catalog stores about a folder: 88 bytes behind the folder's key.
-/

namespace HfsPlus

/-- The catalog record of a folder. -/
structure FolderRecord where
  /-- The code of the record's type. -/
  recordType : UInt16
  /-- Flags of the record. -/
  flags : UInt16
  /-- The number of entries in the folder. -/
  valence : UInt32
  /-- The folder's number. -/
  folderId : CatalogId
  /-- When the folder was created. -/
  createDate : Timestamp
  /-- When an entry was last added or removed. -/
  contentModDate : Timestamp
  /-- When the record was last changed. -/
  attributeModDate : Timestamp
  /-- When the folder was last read. -/
  accessDate : Timestamp
  /-- When the folder was last backed up. -/
  backupDate : Timestamp
  /-- Who may use the folder. -/
  permissions : Permissions
  /-- How the folder is shown. -/
  userInfo : FolderInfo
  /-- More about how the folder is shown. -/
  finderInfo : ExtendedFolderInfo
  /-- The encoding from which the name was converted. -/
  textEncoding : UInt32
  /-- Zero. -/
  reserved : UInt32
deriving DecidableEq, Repr

open Format in
/-- The fields in their order in the record. -/
def FolderRecord.format : Format FolderRecord :=
  (uint16.seq <| uint16.seq <| uint32.seq <| uint32.seq <|
    uint32.seq <| uint32.seq <| uint32.seq <| uint32.seq <| uint32.seq <|
    Permissions.format.seq <| FolderInfo.format.seq <| ExtendedFolderInfo.format.seq <|
    uint32.seq uint32).iso
    (fun (recordType, flags, valence, folderId, createDate, contentModDate, attributeModDate,
        accessDate, backupDate, permissions, userInfo, finderInfo, textEncoding, reserved) =>
      { recordType, flags, valence, folderId, createDate, contentModDate, attributeModDate,
        accessDate, backupDate, permissions, userInfo, finderInfo, textEncoding, reserved })
    (fun r => (r.recordType, r.flags, r.valence, r.folderId, r.createDate, r.contentModDate,
      r.attributeModDate, r.accessDate, r.backupDate, r.permissions, r.userInfo, r.finderInfo,
      r.textEncoding, r.reserved))

end HfsPlus
