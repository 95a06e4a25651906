import HfsPlus.Format.Basic

/-!
# Ownership and permissions

Sixteen bytes of every file and folder record. Their last word has several uses; for a hard link it
is the number of the file that the link stands for.
-/

namespace HfsPlus

/-- Who owns a file or folder, and who may use it. -/
structure Permissions where
  /-- The owner's number. -/
  ownerId : UInt32
  /-- The group's number. -/
  groupId : UInt32
  /-- Flags that only the administrator may change. -/
  adminFlags : UInt8
  /-- Flags that the owner may change. -/
  ownerFlags : UInt8
  /-- The type and permission bits. -/
  fileMode : UInt16
  /-- A link's inode number, a link count or a device number, as the record may need. -/
  special : UInt32
deriving DecidableEq, Repr

open Format in
/-- The fields in their order in the record. -/
def Permissions.format : Format Permissions :=
  (uint32.seq <| uint32.seq <| uint8.seq <| uint8.seq <| uint16.seq uint32).iso
    (fun (ownerId, groupId, adminFlags, ownerFlags, fileMode, special) =>
      { ownerId, groupId, adminFlags, ownerFlags, fileMode, special })
    (fun p => (p.ownerId, p.groupId, p.adminFlags, p.ownerFlags, p.fileMode, p.special))

end HfsPlus
